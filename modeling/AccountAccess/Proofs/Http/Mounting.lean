import AccountAccess.Http.Site
import AccountAccess.Proofs.Grant.Route

/-!
# Mounted interfaces

The interfaces are mounted under the base of the root that the service is set up with, and the
route of a request is made from the mounted template under the same root.  All templates begin
with a slash, so a mounted one lies under the base already, and the route has it unchanged.

So the code that a guard asks for is made from the template and not from the path of the request:
the pieces of a path never get into a code.  What holds of paths under a root in general is put
together here with what holds of the templates of this service.

## Main results

* `Service.path_route`: the path of a route is the mounted template.
* `Service.method_route`: the method of a route is that of the request.
* `routes_rooted_once`: a root has one base; where a path lies, what mounting makes of it, and that
  mounting it again changes nothing; neither letter case nor slashes at the end of a root count.
-/

namespace AccountAccess
namespace Http

open Route (IsBase IsPath LiesUnder SameLetters slashes under)

theorem Service.isBase_base (service : Service) :
    IsBase service.base service.settings.baseUri :=
  Route.isBase_trimRoot service.settings.baseUri

theorem Endpoint.isPath_template (endpoint : Endpoint) : IsPath endpoint.template := by
  cases endpoint with
  | _ => exact Route.isPath_iff.2 (by decide +kernel)

/-- **The path of a route is the mounted template**, whichever pieces the request has. -/
theorem Service.path_route (service : Service) (endpoint : Endpoint) (method : String) :
    (service.route endpoint method).path = service.base ++ endpoint.template :=
  Route.path_under_append service.isBase_base endpoint.isPath_template

/-- The method of a route is that of the request, if the interface can be called with it. -/
theorem Service.method_route (service : Service) {endpoint : Endpoint} {method : String}
    (h : endpoint.acceptsMethod method = true) :
    (service.route endpoint method).method = method := by
  have hmethod : method = "GET" ∨ method = "HEAD" ∨ method = "POST" := by
    rw [Endpoint.acceptsMethod] at h
    split at h
    · rw [Bool.or_eq_true, beq_iff_eq, beq_iff_eq] at h
      exact h.imp_right Or.inl
    · exact Or.inr (Or.inr (beq_iff_eq.1 h))
  show String.ofList (method.toList.map Char.toUpper) = method
  rcases hmethod with rfl | rfl | rfl
  · decide +kernel
  · decide +kernel
  · decide +kernel

/-- **Routes are rooted exactly once.**  A root has one base.  A path behind the base stays there;
any path stays where it is if the base is empty or the path lies under it already, and is put
behind the base otherwise; in all cases it lies under the base afterwards, and rooting it again
changes nothing.  The letter case of the method and the number of slashes at the end of the root
do not count.  So the mounted template of an interface is the path of its routes as it stands. -/
theorem routes_rooted_once (root : String) :
    ∃ base : String, (∀ other, IsBase other root ↔ other = base) ∧
      (∀ method path, IsPath path →
        (under root method (base ++ path)).path = base ++ path ∧
        (base = "" ∨ LiesUnder base path → (under root method path).path = path) ∧
        (¬(base = "" ∨ LiesUnder base path) → (under root method path).path = base ++ path) ∧
        LiesUnder base (under root method path).path ∧
        under root method (under root method path).path = under root method path ∧
        ∀ method' n, SameLetters method' method →
          under (base ++ slashes n) method' path = under root method path) ∧
      ∀ (service : Service) endpoint method, service.settings.baseUri = root →
        service.mounted endpoint = base ++ endpoint.template ∧
        (service.route endpoint method).path = service.mounted endpoint := by
  have hbase := Route.isBase_trimRoot root
  refine ⟨_, fun other => ⟨hbase.unique, fun hother => hother ▸ hbase⟩, ?_, ?_⟩
  · intro method path hpath
    exact ⟨Route.path_under_append hbase hpath, Route.path_under_of_liesUnder hbase,
      Route.path_under_of_not_liesUnder hbase, Route.liesUnder_path_under hbase hpath,
      Route.under_path_under hbase hpath,
      fun method' n hmethod => Route.under_congr hmethod hbase ⟨hbase.last, n, rfl⟩⟩
  · rintro service endpoint method rfl
    exact ⟨rfl, service.path_route endpoint method⟩

/-- A path is put under `/user` unless the slash behind it is there, and only once. -/
example : (under "/user//" "get" "/users/list").path = "/user/users/list" ∧
    (under "/user//" "get" "/user/users/list").path = "/user/users/list" ∧
    (under "//" "get" "/users/list").path = "/users/list" := by
  decide +kernel

end Http
end AccountAccess

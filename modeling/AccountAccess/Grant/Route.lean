/-!
# Routes as permissions see them

A permission code names a service, a method and a path.  The path is that of the
route's template under the place where the interfaces are mounted; a path that
already starts there is not mounted a second time.
-/

namespace AccountAccess

/-- A method and a mounted path. -/
structure Route where
  method : String
  path : String
  deriving DecidableEq, Repr

namespace Route

/-- The root without the slashes at its end. -/
def trimRoot (root : List Char) : List Char :=
  (root.reverse.dropWhile (· == '/')).reverse

/-- Whether a path is the root or lies below it. -/
def isUnder (root path : List Char) : Bool :=
  let below := path.drop root.length
  root.isPrefixOf path && (below.isEmpty || below.head? == some '/')

/-- A path under a root; a path that lies there already stays as it is. -/
def mount (root path : List Char) : List Char :=
  if root.isEmpty || isUnder root path then path else root ++ path

/-- The route of a method and a path under a root. -/
def under (root method path : String) : Route :=
  ⟨String.ofList (method.toList.map Char.toUpper),
   String.ofList (mount (trimRoot root.toList) path.toList)⟩

/-- The permission code of a route in a service. -/
def code (route : Route) (service : String) : String :=
  service ++ ":" ++ route.method ++ ":" ++ route.path

end Route
end AccountAccess

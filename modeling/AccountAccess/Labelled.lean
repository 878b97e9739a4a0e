import AccountAccess.Json.Document
import AccountAccess.Json.Record

/-!
# Named values

Several notions of the service are fixed lists of values.  Each value has a
*name*, by which it is stored and sent, and a *label*, by which it is shown to
people.  Names are read back exactly: no trimming, no change of case.
-/

namespace AccountAccess

/-- A type with a fixed list of values that have names and labels. -/
class Labelled (α : Type) where
  all : List α
  name : α → String
  label : α → String

namespace Labelled

variable {α : Type} [Labelled α]

/-- The value with a given name. -/
def ofName? (s : String) : Option α :=
  (all : List α).find? fun a => name a == s

/-- What is said of a text that names no value. -/
def unknownMessage (s : String) : String :=
  "未知的枚举值: " ++ s

/-- The JSON form of a value is its name. -/
def document (a : α) : Json.Document :=
  .text (name a)

/-- Reads the JSON form of a value. -/
def reader : Json.Reader α :=
  Json.choice ofName?

end Labelled

/-- Where a session is used. -/
inductive Scene where
  | general
  | web
  | mobile
  | ios
  | android
  | miniProgram
  | unknown
  deriving DecidableEq, Repr, Inhabited

instance : Labelled Scene where
  all := [.general, .web, .mobile, .ios, .android, .miniProgram, .unknown]
  name
    | .general => "General"
    | .web => "Web"
    | .mobile => "Mobile"
    | .ios => "Ios"
    | .android => "Android"
    | .miniProgram => "WMP"
    | .unknown => "Unknown"
  label
    | .general => "通用"
    | .web => "网页端"
    | .mobile => "移动端"
    | .ios => "Ios"
    | .android => "Android"
    | .miniProgram => "微信小程序"
    | .unknown => "未知"

/-- Whether an account may be used. -/
inductive Status where
  | enabled
  | disabled
  deriving DecidableEq, Repr, Inhabited

instance : Labelled Status where
  all := [.enabled, .disabled]
  name
    | .enabled => "enable"
    | .disabled => "disable"
  label
    | .enabled => "启用"
    | .disabled => "禁用"

/-- What a permission is about. -/
inductive PermissionKind where
  | api
  deriving DecidableEq, Repr, Inhabited

instance : Labelled PermissionKind where
  all := [.api]
  name | .api => "api"
  label | .api => "API"

/-- What a resource is. -/
inductive ResourceKind where
  | menu
  | button
  | api
  deriving DecidableEq, Repr, Inhabited

instance : Labelled ResourceKind where
  all := [.menu, .button, .api]
  name
    | .menu => "menu"
    | .button => "button"
    | .api => "api"
  label
    | .menu => "菜单"
    | .button => "按钮"
    | .api => "接口"

/-- How a resource is opened. -/
inductive ResourceAction where
  | addTab
  | dialog
  | ajax
  | link
  deriving DecidableEq, Repr, Inhabited

instance : Labelled ResourceAction where
  all := [.addTab, .dialog, .ajax, .link]
  name
    | .addTab => "add_tab"
    | .dialog => "dialog"
    | .ajax => "ajax"
    | .link => "link"
  label
    | .addTab => "选项卡"
    | .dialog => "弹窗"
    | .ajax => "Ajax请求"
    | .link => "链接"

/-- What a one-time code is sent for. -/
inductive CodePurpose where
  | login
  | resetPassword
  deriving DecidableEq, Repr, Inhabited

instance : Labelled CodePurpose where
  all := [.login, .resetPassword]
  name
    | .login => "login"
    | .resetPassword => "reset_password"
  label
    | .login => "登录"
    | .resetPassword => "重置密码"

/-! ## Names determine values -/

/-- Every value is listed and no two share a name. -/
class LawfulLabelled (α : Type) [Labelled α] : Prop where
  mem_all : ∀ a : α, a ∈ (Labelled.all : List α)
  name_injective : ∀ a b : α, Labelled.name a = Labelled.name b → a = b

namespace Labelled

/-- A text names a value exactly when it is the name of that value. -/
theorem ofName?_eq_some_iff {α : Type} [Labelled α] [LawfulLabelled α] {s : String} {a : α} :
    ofName? s = some a ↔ s = name a := by
  constructor
  · intro h
    have := List.find?_some h
    exact (beq_iff_eq.1 this).symm
  · rintro rfl
    cases h : ofName? (α := α) (name a) with
    | none =>
      have := List.find?_eq_none.1 h a (LawfulLabelled.mem_all a)
      simp at this
    | some b =>
      have hb := List.find?_some (p := fun c => name c == name a) h
      rw [LawfulLabelled.name_injective b a (beq_iff_eq.1 hb)]

/-- The name of a value names it. -/
@[simp] theorem ofName?_name {α : Type} [Labelled α] [LawfulLabelled α] (a : α) :
    ofName? (name a) = some a :=
  ofName?_eq_some_iff.2 rfl

end Labelled

instance : LawfulLabelled Scene where
  mem_all := by intro a; cases a <;> decide
  name_injective := by intro a b; cases a <;> cases b <;> decide

instance : LawfulLabelled Status where
  mem_all := by intro a; cases a <;> decide
  name_injective := by intro a b; cases a <;> cases b <;> decide

instance : LawfulLabelled PermissionKind where
  mem_all := by intro a; cases a; decide
  name_injective := by intro a b; cases a; cases b; decide

instance : LawfulLabelled ResourceKind where
  mem_all := by intro a; cases a <;> decide
  name_injective := by intro a b; cases a <;> cases b <;> decide

instance : LawfulLabelled ResourceAction where
  mem_all := by intro a; cases a <;> decide
  name_injective := by intro a b; cases a <;> cases b <;> decide

instance : LawfulLabelled CodePurpose where
  mem_all := by intro a; cases a <;> decide
  name_injective := by intro a b; cases a <;> cases b <;> decide

end AccountAccess

import AccountAccess.Http.Header
import AccountAccess.Proofs.Text.Trim

/-!
# What a header field states

Of the fields of one name only the first counts.  It states the text that is left of it after
trimming, and it states nothing if some byte cannot be read or if nothing is left.  A stated text
is trimmed already, so that a second trimming finds nothing to do.

Names are compared without regard to letter case, so which field is the first of a name is said with
the names in small letters: the fields in front of it have other names (`HasFirst`).

## Main definitions and results

* `Headers.Lacks`, `Headers.HasFirst`: no field has a name, or the first one has a value.
* `first?_eq_none_iff`, `first?_eq_some_iff`: what the reader of fields finds.
* `Headers.States`, `trimmed?_eq_some_iff`: the text that a field states is what is read of it.
-/

namespace AccountAccess

namespace Http

@[simp] theorem toList_lowerCase (name : String) :
    (lowerCase name).toList = name.toList.map Char.toLower := by
  rw [lowerCase, String.toList_ofList]

namespace Headers

variable {headers : Headers} {field text : String} {value : List UInt8}

/-! ## The first field of a name -/

/-- No field has this name. -/
def Lacks (headers : Headers) (field : String) : Prop :=
  ∀ other ∈ headers, lowerCase other.1 ≠ field

/-- The first field of this name has this value: the fields in front of it have other names. -/
def HasFirst (headers : Headers) (field : String) (value : List UInt8) : Prop :=
  ∃ front name back, headers = front ++ (name, value) :: back ∧ lowerCase name = field ∧
    Lacks front field

theorem first?_eq_none_iff : headers.first? field = none ↔ headers.Lacks field := by
  simp [first?, Lacks]

theorem first?_eq_some_iff : headers.first? field = some value ↔ headers.HasFirst field value := by
  simp only [first?, Option.map_eq_some_iff, List.find?_eq_some_iff_append, beq_iff_eq, HasFirst,
    Lacks, Bool.not_eq_true', beq_eq_false_iff_ne]
  constructor
  · rintro ⟨⟨name, _⟩, ⟨hname, front, back, hheaders, hfront⟩, rfl⟩
    exact ⟨front, name, back, hheaders, hname, hfront⟩
  · rintro ⟨front, name, back, hheaders, hname, hfront⟩
    exact ⟨(name, value), ⟨hname, front, back, hheaders, hfront⟩, rfl⟩

/-! ## The text that a field states -/

/-- The first field of a name is readable, and this is what is left of it after trimming. -/
def States (headers : Headers) (field text : String) : Prop :=
  text ≠ "" ∧ ∃ bytes line, headers.HasFirst field bytes ∧
    Text.visible? bytes = some line ∧ Text.trim line = text

/-- **What is read of a field is what it states.** -/
theorem trimmed?_eq_some_iff : headers.trimmed? field = some text ↔ headers.States field text := by
  simp only [trimmed?, readable?, States, Option.filter_eq_some_iff, Option.map_eq_some_iff,
    Option.bind_eq_some_iff, bne_iff_ne, first?_eq_some_iff]
  constructor
  · rintro ⟨⟨line, ⟨bytes, hfirst, hvisible⟩, htrim⟩, hne⟩
    exact ⟨hne, bytes, line, hfirst, hvisible, htrim⟩
  · rintro ⟨hne, bytes, line, hfirst, hvisible, htrim⟩
    exact ⟨⟨line, ⟨bytes, hfirst, hvisible⟩, htrim⟩, hne⟩

theorem States.trim_eq (h : headers.States field text) : Text.trim text = text := by
  obtain ⟨-, bytes, line, -, -, rfl⟩ := h
  exact Text.trim_trim line

end Headers
end Http
end AccountAccess

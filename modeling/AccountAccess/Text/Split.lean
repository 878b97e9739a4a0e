/-!
# Cutting a text at a mark

Two ways to cut: once, at the first mark, and at every mark.
-/

namespace AccountAccess
namespace Text

/-- What stands before and after the first mark; nothing when there is no mark. -/
def splitFirst (mark : Char) : List Char → Option (List Char × List Char)
  | [] => none
  | c :: cs =>
    if c = mark then some ([], cs)
    else (splitFirst mark cs).map fun (front, back) => (c :: front, back)

/-- The pieces between the marks, empty ones included; there is one piece more
than there are marks. -/
def splitEvery (mark : Char) : List Char → List (List Char)
  | [] => [[]]
  | c :: cs =>
    if c = mark then [] :: splitEvery mark cs
    else
      match splitEvery mark cs with
      | [] => [[c]]
      | piece :: pieces => (c :: piece) :: pieces

/-- `splitEvery` on strings. -/
def pieces (mark : Char) (s : String) : List String :=
  (splitEvery mark s.toList).map String.ofList

/-- A text cut at its first mark is the front, the mark and the back, and the
front has no mark. -/
theorem splitFirst_eq_some_iff {mark : Char} {cs front back : List Char} :
    splitFirst mark cs = some (front, back) ↔
      cs = front ++ mark :: back ∧ mark ∉ front := by
  induction cs generalizing front with
  | nil => simp [splitFirst]
  | cons c cs ih =>
    by_cases h : c = mark
    · subst h
      cases front with
      | nil => simp [splitFirst, eq_comm]
      | cons d ds =>
        simp only [splitFirst, if_pos]
        constructor
        · rintro ⟨⟩
        · rintro ⟨heq, hmem⟩
          exact absurd (List.mem_cons.2 (.inl (List.cons.inj heq).1)) hmem
    · cases front with
      | nil => simp [splitFirst, h]
      | cons d ds =>
        simp only [splitFirst, if_neg h, Option.map_eq_some_iff, Prod.exists, Prod.mk.injEq,
          List.cons.injEq, List.cons_append, List.mem_cons, not_or]
        constructor
        · rintro ⟨f, b, hsplit, ⟨rfl, rfl⟩, rfl⟩
          have := ih.1 hsplit
          exact ⟨⟨rfl, this.1⟩, Ne.symm h, this.2⟩
        · rintro ⟨⟨rfl, hcs⟩, -, hmem⟩
          exact ⟨ds, back, ih.2 ⟨hcs, hmem⟩, ⟨rfl, rfl⟩, rfl⟩

/-- What stands before and after the first mark is determined by the text. -/
theorem eq_of_append_mark {mark : Char} {front front' back back' : List Char}
    (h : front ++ mark :: back = front' ++ mark :: back') (hfront : mark ∉ front)
    (hfront' : mark ∉ front') : front = front' ∧ back = back' := by
  have hsplit : splitFirst mark (front ++ mark :: back) = some (front, back) :=
    splitFirst_eq_some_iff.2 ⟨rfl, hfront⟩
  have hsplit' : splitFirst mark (front ++ mark :: back) = some (front', back') :=
    splitFirst_eq_some_iff.2 ⟨h, hfront'⟩
  rw [hsplit] at hsplit'
  exact Prod.mk.inj (Option.some.inj hsplit')

/-- What stands before and after the last mark is determined by the text. -/
theorem eq_of_append_last_mark {mark : Char} {front front' back back' : List Char}
    (h : front ++ mark :: back = front' ++ mark :: back') (hback : mark ∉ back)
    (hback' : mark ∉ back') : front = front' ∧ back = back' := by
  have hreverse : back.reverse ++ mark :: front.reverse =
      back'.reverse ++ mark :: front'.reverse := by
    simpa using congrArg List.reverse h
  obtain ⟨hback, hfront⟩ := eq_of_append_mark hreverse (by rwa [List.mem_reverse])
    (by rwa [List.mem_reverse])
  exact ⟨List.reverse_inj.1 hfront, List.reverse_inj.1 hback⟩

/-- Where no front of a kind has the mark, a text is cut into such a front and a back exactly if
it is made of them. -/
theorem exists_splitFirst_iff {mark : Char} {cs : List Char} {Front Back : List Char → Prop}
    (hmark : ∀ front, Front front → mark ∉ front) :
    (∃ front back, splitFirst mark cs = some (front, back) ∧ Front front ∧ Back back) ↔
      ∃ front back, cs = front ++ mark :: back ∧ Front front ∧ Back back := by
  constructor
  · rintro ⟨front, back, hsplit, hfront, hback⟩
    exact ⟨front, back, (splitFirst_eq_some_iff.1 hsplit).1, hfront, hback⟩
  · rintro ⟨front, back, hcs, hfront, hback⟩
    exact ⟨front, back, splitFirst_eq_some_iff.2 ⟨hcs, hmark front hfront⟩, hfront, hback⟩

end Text
end AccountAccess

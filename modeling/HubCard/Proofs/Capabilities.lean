import HubCard.Capability
import Mathlib.Data.List.Basic

/-!
Which commands a hub's list allows. Only the usable elements of the list count, and where there are
none every command is allowed. Elements that are not usable can come and go, and the order of the
elements does not matter for what is allowed.
-/

namespace HubCard.Capabilities

/-! ## The usable elements -/

theorem mem_entries {raw : List Json} {e : Capability} :
    e ∈ (ofList raw).entries ↔ ∃ v ∈ raw, Capability.ofJson? v = some e :=
  List.mem_filterMap

theorem entries_eq_nil_iff {raw : List Json} :
    (ofList raw).entries = [] ↔ ∀ v ∈ raw, Capability.ofJson? v = none :=
  List.filterMap_eq_nil_iff

-- Without the other elements a list has the same entries.
theorem entries_filter (raw : List Json) :
    (ofList (raw.filter (Capability.ofJson? · |>.isSome))).entries = (ofList raw).entries := by
  show List.filterMap Capability.ofJson? _ = List.filterMap Capability.ofJson? raw
  rw [List.filterMap_filter]
  apply List.filterMap_congr
  intro v _
  cases Capability.ofJson? v <;> rfl

theorem malformed_iff {raw : List Json} :
    (ofList raw).malformed = true ↔ raw ≠ [] ∧ ∀ v ∈ raw, Capability.ofJson? v = none := by
  rw [← entries_eq_nil_iff]
  show (!raw.isEmpty && (ofList raw).entries.isEmpty) = true ↔ _
  rw [Bool.and_eq_true, Bool.not_eq_true', List.isEmpty_eq_false_iff, List.isEmpty_iff]

/-! ## What is allowed -/

-- A malformed list has no entries, so it is enough to look at the entries.
theorem allows_eq (raw : List Json) (id : Id) :
    (ofList raw).allows id =
      ((ofList raw).entries.isEmpty || (ofList raw).entries.any (·.commandId == id)) := by
  rw [allows]
  cases hmalformed : (ofList raw).malformed with
  | false => rw [Bool.false_or]
  | true =>
    rw [entries_eq_nil_iff.mpr (malformed_iff.mp hmalformed).2]
    rfl

theorem allows_iff {raw : List Json} {id : Id} :
    (ofList raw).allows id = true ↔
      (∀ v ∈ raw, Capability.ofJson? v = none) ∨
        ∃ v ∈ raw, ∃ e, Capability.ofJson? v = some e ∧ e.commandId = id := by
  rw [allows_eq, Bool.or_eq_true, List.isEmpty_iff, entries_eq_nil_iff, List.any_eq_true]
  apply or_congr_right
  constructor
  · rintro ⟨e, he, hid⟩
    obtain ⟨v, hv, hparsed⟩ := mem_entries.mp he
    exact ⟨v, hv, e, hparsed, eq_of_beq hid⟩
  · rintro ⟨v, hv, e, hparsed, rfl⟩
    exact ⟨e, mem_entries.mpr ⟨v, hv, hparsed⟩, beq_self_eq_true e.commandId⟩

theorem allows_of_subset {raw more : List Json} (hsubset : raw ⊆ more)
    (husable : ∃ v ∈ raw, (Capability.ofJson? v).isSome = true) {id : Id}
    (hallows : (ofList raw).allows id = true) : (ofList more).allows id = true := by
  rw [allows_iff] at hallows ⊢
  rcases hallows with hnone | ⟨v, hv, hparsed⟩
  · -- the policy is not to allow everything
    obtain ⟨v, hv, hsome⟩ := husable
    rw [hnone v hv] at hsome
    cases hsome
  · exact .inr ⟨v, hsubset hv, hparsed⟩

/-- A command is allowed exactly when no element of the list is usable or one is for it, and the
list is malformed exactly when it has elements and none is usable. Another list with the same usable
elements in the same order allows the same commands and sends them the same way, and one with the
same elements in any order allows the same commands. Once an element is usable, what is allowed
stays so when elements are added. -/
theorem ofList_exact (raw : List Json) (id : Id) :
    ((ofList raw).allows id = true ↔
      (∀ v ∈ raw, Capability.ofJson? v = none) ∨
        ∃ v ∈ raw, ∃ e, Capability.ofJson? v = some e ∧ e.commandId = id) ∧
      ((ofList raw).malformed = true ↔ raw ≠ [] ∧ ∀ v ∈ raw, Capability.ofJson? v = none) ∧
      (∀ other : List Json,
        raw.filter (Capability.ofJson? · |>.isSome) =
            other.filter (Capability.ofJson? · |>.isSome) →
          (ofList raw).allows id = (ofList other).allows id ∧
            entry? (ofList raw) id = entry? (ofList other) id ∧
            ∀ activityId, (ofList raw).route? id activityId = (ofList other).route? id activityId) ∧
      (∀ other : List Json, raw.Perm other → (ofList raw).allows id = (ofList other).allows id) ∧
      ∀ more : List Json, raw ⊆ more → (∃ v ∈ raw, (Capability.ofJson? v).isSome = true) →
        (ofList raw).allows id = true → (ofList more).allows id = true := by
  refine ⟨allows_iff, malformed_iff, ?_, ?_, ?_⟩
  · intro other hsame
    have hentries : (ofList raw).entries = (ofList other).entries := by
      rw [← entries_filter raw, hsame, entries_filter]
    refine ⟨?_, ?_, fun activityId => ?_⟩
    · rw [allows_eq, allows_eq, hentries]
    · unfold entry?
      rw [hentries]
    · unfold route? entry?
      rw [hentries]
  · intro other hperm
    rw [Bool.eq_iff_iff, allows_iff, allows_iff]
    simp only [hperm.mem_iff]
  · exact fun more hsubset husable => allows_of_subset hsubset husable

-- One usable element takes away what was allowed without it, and another one gives some of it back.
theorem ofList_exact_flip :
    let unusable : List Json := [.str "volume", .null]
    let one : List Json := [.str "volume", .int 183]
    let two : List Json := [.int 182, .str "volume", .int 183]
    (ofList unusable).allows 182 = true ∧ (ofList one).allows 182 = false ∧
      (ofList [.int 183]).route? 183 (some 7) = (ofList one).route? 183 (some 7) ∧
      (ofList one.reverse).allows 183 = true ∧ (ofList two).allows 183 = true := by
  intro unusable one two
  have hone : (ofList one).allows 183 = true :=
    (ofList_exact one 183).1.mpr (.inr ⟨.int 183, by simp [one], ⟨183, none⟩, by decide, rfl⟩)
  refine ⟨?_, ?_, ?_, ?_, ?_⟩
  · exact (ofList_exact unusable 182).1.mpr (.inl (by decide))
  · decide
  · obtain ⟨-, -, hsame, -⟩ := ofList_exact [.int 183] 183
    exact (hsame one rfl).2.2 (some 7)
  · obtain ⟨-, -, -, hperm, -⟩ := ofList_exact one.reverse 183
    rw [hperm one (List.reverse_perm one), hone]
  · obtain ⟨-, -, -, -, hmore⟩ := ofList_exact one 183
    exact hmore two (List.subset_cons_self _ one) ⟨.int 183, by simp [one], by decide⟩ hone

end HubCard.Capabilities

import HubCard.Capability
import Mathlib.Data.List.Basic

/-!
How a record stands for a capability. Hubs write each of its two ids under one of several fields; the
first field that holds anything decides, also where what it holds is no id, and nothing else in the
record has a say.
-/

namespace HubCard.Capability

/-! ## The leading field -/

/-- The field is there and its value says something: it is neither null nor a blank text. -/
def Holds (members : Dict Json) (field : String) (v : Json) : Prop :=
  members.get? field = some v ∧ v ≠ .null ∧
    ∀ s, v = .str s → ∃ c ∈ s.toList, Text.isBlank c = false

/-- The value is that of the first of the fields that hold any. -/
def Leads (members : Dict Json) (fields : List String) (v : Json) : Prop :=
  ∃ passed field left, fields = passed ++ field :: left ∧ Holds members field v ∧
    ∀ other ∈ passed, ∀ w, ¬ Holds members other w

theorem isPopulated_iff {v : Json} :
    isPopulated v = true ↔
      v ≠ .null ∧ ∀ s, v = .str s → ∃ c ∈ s.toList, Text.isBlank c = false := by
  cases v with
  | str s => simp [isPopulated, Text.isBlankText]
  | _ => simp [isPopulated]

theorem holds_iff {members : Dict Json} {field : String} {v : Json} :
    Holds members field v ↔ (members.get? field).filter isPopulated = some v := by
  rw [Option.filter_eq_some_iff, isPopulated_iff, Holds]

theorem firstPopulated_eq_some_iff {members : Dict Json} {fields : List String} {v : Json} :
    firstPopulated members fields = some v ↔ Leads members fields v := by
  rw [firstPopulated, List.findSome?_eq_some_iff]
  simp only [Leads, holds_iff, Option.eq_none_iff_forall_ne_some, ne_eq]

theorem bind_ofJson?_eq_some_iff {members : Dict Json} {fields : List String} {id : Id} :
    (firstPopulated members fields).bind Id.ofJson? = some id ↔
      ∃ v, Leads members fields v ∧ Id.ofJson? v = some id := by
  rw [Option.bind_eq_some_iff]
  simp only [firstPopulated_eq_some_iff]

theorem ofJson?_obj_eq_some_iff {members : Dict Json} {e : Capability} :
    ofJson? (.obj members) = some e ↔
      (∃ v, Leads members commandFields v ∧ Id.ofJson? v = some e.commandId) ∧
        ∀ target, e.targetId = some target ↔
          ∃ w, Leads members targetFields w ∧ Id.ofJson? w = some target := by
  simp only [← bind_ofJson?_eq_some_iff, ← Option.ext_iff]
  rw [ofJson?, ofMembers?, Option.map_eq_some_iff]
  constructor
  · rintro ⟨commandId, hcommand, rfl⟩
    exact ⟨hcommand, rfl⟩
  · rintro ⟨hcommand, htarget⟩
    exact ⟨e.commandId, hcommand, by rw [← htarget]⟩

/-! ## What a record says besides -/

/-- A search through the fields does not get to see a value that is put under the key: the key is
none of them, or it stands behind one that holds a value, or it held nothing before and holds nothing
now. -/
def Hidden (members : Dict Json) (fields : List String) (key : String) (v : Json) : Prop :=
  key ∉ fields ∨
    (∃ passed left, fields = passed ++ key :: left ∧ key ∉ passed ∧
      ∃ other ∈ passed, ∃ w, Holds members other w) ∨
    ∀ w, ¬ Holds members key w ∧ ¬ Holds (members.insert key v) key w

theorem firstPopulated_congr {a b : Dict Json} {fields : List String}
    (h : ∀ field ∈ fields, ∀ v, Holds a field v ↔ Holds b field v) :
    firstPopulated a fields = firstPopulated b fields := by
  induction fields with
  | nil => rfl
  | cons field fields ih =>
    have hfield : (a.get? field).filter isPopulated = (b.get? field).filter isPopulated := by
      ext v
      rw [← holds_iff, ← holds_iff]
      exact h field List.mem_cons_self v
    have hleft := ih fun other hother => h other (List.mem_cons_of_mem _ hother)
    unfold firstPopulated at hleft ⊢
    rw [List.findSome?_cons, List.findSome?_cons, hfield, hleft]

theorem holds_insert_of_ne {members : Dict Json} {key field : String} (v : Json)
    (hne : field ≠ key) (w : Json) : Holds (members.insert key v) field w ↔ Holds members field w := by
  rw [Holds, Holds, Dict.get?_insert_of_ne members v hne]

theorem firstPopulated_insert_of_not_mem {members : Dict Json} {fields : List String}
    {key : String} (v : Json) (hkey : key ∉ fields) :
    firstPopulated (members.insert key v) fields = firstPopulated members fields := by
  apply firstPopulated_congr
  intro field hfield
  exact holds_insert_of_ne v fun h => hkey (h ▸ hfield)

theorem firstPopulated_isSome_of_holds {members : Dict Json} {fields : List String}
    {field : String} {v : Json} (hfield : field ∈ fields) (hv : Holds members field v) :
    (firstPopulated members fields).isSome = true := by
  rw [firstPopulated, List.findSome?_isSome_iff]
  exact ⟨field, hfield, by rw [holds_iff.mp hv]; rfl⟩

theorem firstPopulated_insert {members : Dict Json} {fields : List String} {key : String}
    {v : Json} (h : Hidden members fields key v) :
    firstPopulated (members.insert key v) fields = firstPopulated members fields := by
  rcases h with hkey | ⟨passed, left, rfl, hkey, other, hother, w, hw⟩ | hnone
  · exact firstPopulated_insert_of_not_mem v hkey
  · -- the search ends among the fields before the key
    have hpassed : firstPopulated (members.insert key v) passed = firstPopulated members passed :=
      firstPopulated_insert_of_not_mem v hkey
    obtain ⟨first, hfirst⟩ := Option.isSome_iff_exists.mp (firstPopulated_isSome_of_holds hother hw)
    rw [hfirst] at hpassed
    unfold firstPopulated at hpassed hfirst ⊢
    rw [List.findSome?_append, List.findSome?_append, hpassed, hfirst, Option.some_or, Option.some_or]
  · apply firstPopulated_congr
    intro field _ w
    by_cases hfield : field = key
    · rw [hfield]
      exact iff_of_false (hnone w).2 (hnone w).1
    · exact holds_insert_of_ne v hfield w

theorem ofJson?_obj_congr {a b : Dict Json}
    (hcommand : firstPopulated a commandFields = firstPopulated b commandFields)
    (htarget : firstPopulated a targetFields = firstPopulated b targetFields) :
    ofJson? (.obj a) = ofJson? (.obj b) := by
  show ofMembers? a = ofMembers? b
  rw [ofMembers?, ofMembers?, hcommand, htarget]

/-- A record stands for a capability exactly when the leading value of the command's fields is an id.
That id is the command's, and the owner's is the leading value of the owner's fields where that is an
id, and none where it is not, whatever the fields behind it hold. Two records with the same leading
values stand for the same, and so does a record with a value put where neither search gets to see it. -/
theorem ofJson?_obj_exact (members : Dict Json) :
    (∀ e, ofJson? (.obj members) = some e ↔
      (∃ v, Leads members commandFields v ∧ Id.ofJson? v = some e.commandId) ∧
        ∀ target, e.targetId = some target ↔
          ∃ w, Leads members targetFields w ∧ Id.ofJson? w = some target) ∧
      ((ofJson? (.obj members)).isSome = true ↔
        ∃ v id, Leads members commandFields v ∧ Id.ofJson? v = some id) ∧
      (∀ v w id, Leads members commandFields v → Id.ofJson? v = some id →
        Leads members targetFields w → Id.ofJson? w = none →
          ofJson? (.obj members) = some ⟨id, none⟩) ∧
      (∀ other : Dict Json, (∀ v, Leads members commandFields v ↔ Leads other commandFields v) →
        (∀ w, Leads members targetFields w ↔ Leads other targetFields w) →
          ofJson? (.obj members) = ofJson? (.obj other)) ∧
      ∀ key v, Hidden members commandFields key v → Hidden members targetFields key v →
        ofJson? (.obj (members.insert key v)) = ofJson? (.obj members) := by
  refine ⟨fun e => ofJson?_obj_eq_some_iff, ?_, ?_, ?_, ?_⟩
  · simp only [← firstPopulated_eq_some_iff]
    show (ofMembers? members).isSome = true ↔ _
    rw [ofMembers?, Option.isSome_map, Option.isSome_iff_exists]
    simp only [Option.bind_eq_some_iff]
    exact exists_comm
  · intro v w id hcommand hid htarget hunusable
    rw [ofJson?_obj_eq_some_iff]
    refine ⟨⟨v, hcommand, hid⟩, fun target => iff_of_false nofun ?_⟩
    rintro ⟨w', hw', husable⟩
    rw [← firstPopulated_eq_some_iff] at htarget hw'
    rw [htarget, Option.some.injEq] at hw'
    rw [← hw', hunusable] at husable
    cases husable
  · intro other hcommand htarget
    simp only [← firstPopulated_eq_some_iff, ← Option.ext_iff] at hcommand htarget
    exact ofJson?_obj_congr hcommand htarget
  · intro key v hcommand htarget
    exact ofJson?_obj_congr (firstPopulated_insert hcommand) (firstPopulated_insert htarget)

-- A blank alias is passed over and an owner that is no id is not, and what stands behind is not seen.
theorem ofJson?_obj_exact_muddled :
    let muddled : Dict Json :=
      [("activity_id", .str "none"), ("command", .str " 9"), ("command_id", .str "  "),
        ("device", .int 12)]
    let plain : Dict Json := [("activity_id", .str "none"), ("code", .str " 9")]
    Leads muddled commandFields (.str " 9") ∧ Leads muddled targetFields (.str "none") ∧
      ofJson? (.obj muddled) = some ⟨9, none⟩ ∧
      ofJson? (.obj muddled) = ofJson? (.obj plain) ∧
      ofJson? (.obj (muddled.insert "button" (.int 5))) = ofJson? (.obj muddled) := by
  intro muddled plain
  have hcommand : firstPopulated muddled commandFields = some (.str " 9") := rfl
  have htarget : firstPopulated muddled targetFields = some (.str "none") := rfl
  have hcommand' : firstPopulated plain commandFields = some (.str " 9") := rfl
  have htarget' : firstPopulated plain targetFields = some (.str "none") := rfl
  obtain ⟨-, -, hunusable, hsame, hhidden⟩ := ofJson?_obj_exact muddled
  refine ⟨firstPopulated_eq_some_iff.mp hcommand, firstPopulated_eq_some_iff.mp htarget, ?_, ?_, ?_⟩
  · exact hunusable (.str " 9") (.str "none") 9 (firstPopulated_eq_some_iff.mp hcommand) (by decide)
      (firstPopulated_eq_some_iff.mp htarget) (by decide)
  · apply hsame plain
    · intro v
      rw [← firstPopulated_eq_some_iff, ← firstPopulated_eq_some_iff, hcommand, hcommand']
    · intro w
      rw [← firstPopulated_eq_some_iff, ← firstPopulated_eq_some_iff, htarget, htarget']
  · apply hhidden "button" (.int 5)
    · refine .inr (.inl ⟨["command_id", "command", "button_id"], ["id", "code"], rfl, by decide,
        "command", by decide, .str " 9", ?_⟩)
      rw [holds_iff]
      rfl
    · exact .inl (by decide)

end HubCard.Capability

import HubCard.Card
import Mathlib.Data.List.Forall2
import Mathlib.Data.List.TakeDrop
import Mathlib.Data.List.TakeWhile

/-!
Configurations that are saved and loaded again. What is written for a configuration reads as that
configuration, field for field, whenever its entity is a reference without blanks around it; and
whatever value a configuration was read from, its entity is of that kind.
-/

namespace HubCard

namespace Json

/-! ## Reading what was written -/

namespace Decoder

variable {α β : Type}

/-- What is written for a value reads as this value. -/
def Inverts (d : Decoder α) (write : α → Json) : Prop :=
  ∀ a, d.ofJson (write a) = .ok a

theorem inverts_string : string.Inverts .str :=
  fun _ => rfl

theorem inverts_bool : bool.Inverts .bool :=
  fun _ => rfl

theorem inverts_natural {bound : Nat} {wanted : String} {ofNat : Nat → α} {toNat : α → Nat}
    (hlt : ∀ a, toNat a < bound) (hback : ∀ a, ofNat (toNat a) = a) :
    (natural bound wanted ofNat).Inverts fun a => .int (toNat a) := by
  intro a
  have hfits : (0 : Int) ≤ toNat a ∧ (toNat a : Int) < bound :=
    ⟨Int.natCast_nonneg _, Int.ofNat_lt.mpr (hlt a)⟩
  show (if (0 : Int) ≤ toNat a ∧ (toNat a : Int) < bound then _ else _) = _
  rw [if_pos hfits, Int.toNat_natCast, hback]

theorem inverts_word64 : word64.Inverts fun n => .int n.toNat :=
  inverts_natural UInt64.toNat_lt fun _ => UInt64.ofNat_toNat

theorem inverts_byte : byte.Inverts fun n => .int n.toNat :=
  inverts_natural UInt8.toNat_lt fun _ => UInt8.ofNat_toNat

namespace Inverts

variable {d : Decoder α} {write : α → Json} (h : d.Inverts write)

include h

theorem map {f : α → β} (back : β → α) (hback : ∀ b, f (back b) = b) :
    (d.map f).Inverts fun b => write (back b) := by
  intro b
  show (d.ofJson (write (back b))).map f = _
  rw [h (back b), Except.map, hback]

-- None is written as null, so nothing else may be.
theorem option (hnull : ∀ a, write a ≠ .null) :
    d.option.Inverts fun a => .ofOption (a.map write) := by
  intro a
  cases a with
  | none => rfl
  | some a =>
    have hread := h a
    have hne := hnull a
    show d.option.ofJson (write a) = _
    cases hwritten : write a with
    | null => exact absurd hwritten hne
    | _ =>
      rw [hwritten] at hread
      show (d.ofJson _).map some = _
      rw [hread]
      rfl

theorem triple : d.triple.Inverts fun (a, b, c) => .arr [write a, write b, write c] := by
  intro (a, b, c)
  show (do
    let abc := (← d.ofJson (write a), ← d.ofJson (write b), ← d.ofJson (write c))
    if [].isEmpty then Except.ok abc else _) = _
  rw [h a, h b, h c]
  rfl

end Inverts

end Decoder

namespace Record

variable {σ : Type} {r : Record σ}

/-- The record takes the member as this change. -/
def Takes (r : Record σ) (member : String × Json) (put : σ → σ) : Prop :=
  ∃ f, r.field? member.1 = some f ∧ f.ofJson member.2 = .ok put

theorem Takes.of_inverts {α : Type} {d : Decoder α} {write : α → Json} {name : String}
    {put : α → σ → σ} (h : d.Inverts write) (hfield : r.field? name = some (d.field name put))
    (a : α) : r.Takes (name, write a) (put a) := by
  refine ⟨_, hfield, ?_⟩
  show (d.ofJson (write a)).map put = _
  rw [h a]
  rfl

-- With no field required, each member changes the record in its turn.
theorem ofMembers_of_takes {members : List (String × Json)} {puts : List (σ → σ)}
    {seen : List String} {record result : σ} (hnone : ∀ f ∈ r.fields, f.required = false)
    (htakes : List.Forall₂ r.Takes members puts)
    (hresult : puts.foldl (fun record put => put record) record = result) :
    r.ofMembers members seen record = .ok result := by
  induction htakes generalizing seen record with
  | nil =>
    have hall : (r.fields.find? fun f => f.required && !seen.contains f.name) = none := by
      rw [List.find?_eq_none]
      intro f hf
      simp [hnone f hf]
    rw [ofMembers, finish, hall]
    exact congrArg Except.ok hresult
  | cons hmember _ ih =>
    obtain ⟨f, hfield, hput⟩ := hmember
    simp only [ofMembers, hfield, hput]
    exact ih hresult

end Record

end Json

/-! ## Times, colors and configurations -/

namespace Timing

theorem inverts_decoder : decoder.Inverts toJson := by
  intro t
  have htime := Json.Decoder.inverts_word64
  apply Json.Record.ofMembers_of_takes
  case hnone => decide
  case htakes =>
    exact .cons (.of_inverts htime rfl t.loadTimeout) <|
      .cons (.of_inverts htime rfl t.pulseLength) <|
      .cons (.of_inverts htime rfl t.requestExpiry) .nil
  case hresult => rfl

end Timing

namespace Color

theorem inverts_decoder : decoder.Inverts toJson := by
  have hparts := Json.Decoder.inverts_byte.triple.map
    (f := fun p => Color.mk p.1 p.2.1 p.2.2) (fun c => (c.red, c.green, c.blue)) fun _ => rfl
  exact hparts

end Color

namespace Config

theorem inverts_decoder : record.decoder.Inverts toJson := by
  intro c
  have hbool := Json.Decoder.inverts_bool
  have hentity := Json.Decoder.inverts_string
  have htheme : Json.Decoder.string.option.Inverts .ofText? := hentity.option nofun
  have hcolor : Color.decoder.option.Inverts fun color => .ofOption (color.map Color.toJson) :=
    Color.inverts_decoder.option nofun
  apply Json.Record.ofMembers_of_takes
  case hnone => decide
  case htakes =>
    exact .cons (.of_inverts hcolor rfl c.background) <|
      .cons (.of_inverts hentity rfl c.entity) <|
      .cons (.of_inverts hbool rfl c.showAbc) <|
      .cons (.of_inverts hbool rfl c.showActivity) <|
      .cons (.of_inverts hbool rfl c.showColors) <|
      .cons (.of_inverts hbool rfl c.showDpad) <|
      .cons (.of_inverts hbool rfl c.showFavorites) <|
      .cons (.of_inverts hbool rfl c.showMacros) <|
      .cons (.of_inverts hbool rfl c.showMedia) <|
      .cons (.of_inverts hbool rfl c.showMid) <|
      .cons (.of_inverts hbool rfl c.showNav) <|
      .cons (.of_inverts htheme rfl c.theme) <|
      .cons (.of_inverts Timing.inverts_decoder rfl c.timing) .nil
  case hresult => rfl

/-! ## The entity -/

/-- A domain and a name with a point between them, the first one in the text, and no blanks around
the whole. -/
structure Refers (entity : String) : Prop where
  unpadded : ∀ c, entity.toList.head? = some c ∨ entity.toList.getLast? = some c →
    Text.isBlank c = false
  parts : ∃ domain name : String, entity = domain ++ "." ++ name ∧ '.' ∉ domain.toList ∧
    domain ≠ "" ∧ name ≠ ""

theorem span_point {domain : List Char} (hpoint : '.' ∉ domain) (name : List Char) :
    (domain ++ '.' :: name).span (· ≠ '.') = (domain, '.' :: name) := by
  have hdomain : ∀ c ∈ domain, decide (c ≠ '.') = true := by
    intro c hc
    exact decide_eq_true fun heq => hpoint (heq ▸ hc)
  rw [List.span_eq_takeWhile_dropWhile, List.takeWhile_append_of_pos hdomain,
    List.dropWhile_append_of_pos hdomain]
  simp

theorem isReference_iff {entity : String} :
    isReference entity = true ↔ ∃ domain name : String, entity = domain ++ "." ++ name ∧
      '.' ∉ domain.toList ∧ domain ≠ "" ∧ name ≠ "" := by
  unfold isReference
  constructor
  · intro h
    split at h
    · rename_i d ds n ns hspan
      rw [List.span_eq_takeWhile_dropWhile, Prod.mk.injEq] at hspan
      have hsplit : entity.toList = d :: ds ++ '.' :: n :: ns := by
        rw [← hspan.1, ← hspan.2, List.takeWhile_append_dropWhile]
      have hpoint : '.' ∉ d :: ds := by
        intro hmem
        rw [← hspan.1] at hmem
        simpa using List.mem_takeWhile_imp hmem
      refine ⟨.ofList (d :: ds), .ofList (n :: ns), ?_, ?_, ?_, ?_⟩
      · rw [← String.toList_inj, hsplit]
        simp
      · rwa [String.toList_ofList]
      · simp [← String.toList_inj]
      · simp [← String.toList_inj]
    · cases h
  · rintro ⟨domain, name, rfl, hpoint, hdomain, hname⟩
    have hlist : (domain ++ "." ++ name).toList = domain.toList ++ '.' :: name.toList := by
      simp
    rw [hlist, span_point hpoint]
    rw [Ne, ← String.toList_inj] at hdomain hname
    cases hd : domain.toList with
    | nil => exact absurd hd hdomain
    | cons d ds =>
      cases hn : name.toList with
      | nil => exact absurd hn hname
      | cons n ns => rfl

theorem validate_eq_ok_iff {c : Config} :
    c.validate = .ok () ↔ isReference c.entity = true := by
  unfold validate
  split
  · rename_i hempty
    rw [String.isEmpty_iff.mp hempty]
    exact iff_of_false nofun (by decide)
  · split
    · rename_i href
      exact iff_of_true rfl href
    · rename_i href
      exact iff_of_false nofun href

theorem ofJson_eq_ok_iff {v : Json} {c : Config} :
    ofJson v = .ok c ↔ ∃ read, record.decoder.ofJson v = .ok read ∧
      c = { read with entity := Text.trim read.entity } ∧ isReference c.entity = true := by
  unfold ofJson
  cases hread : record.decoder.ofJson v with
  | error fault => simp
  | ok read =>
    simp only [Except.ok.injEq, exists_eq_left']
    generalize ({ read with entity := Text.trim read.entity } : Config) = trimmed
    cases hvalid : trimmed.validate with
    | error e =>
      have hnot : ¬ isReference trimmed.entity = true := by
        rw [← validate_eq_ok_iff, hvalid]
        nofun
      exact iff_of_false nofun fun ⟨hc, href⟩ => hnot (hc ▸ href)
    | ok =>
      constructor
      · intro hc
        rw [← Except.ok.inj hc]
        exact ⟨rfl, validate_eq_ok_iff.mp hvalid⟩
      · rintro ⟨hc, -⟩
        rw [hc]
        rfl

theorem refers_of_ofJson {v : Json} {c : Config} (h : ofJson v = .ok c) : Refers c.entity := by
  obtain ⟨read, -, hc, href⟩ := ofJson_eq_ok_iff.mp h
  refine ⟨Text.trim_eq_self_iff.mp ?_, isReference_iff.mp href⟩
  rw [hc]
  exact Text.trim_trim read.entity

theorem ofJson_toJson {c : Config} (h : Refers c.entity) : ofJson c.toJson = .ok c := by
  have htrim : Text.trim c.entity = c.entity := Text.trim_eq_self_iff.mpr h.unpadded
  apply ofJson_eq_ok_iff.mpr
  refine ⟨c, inverts_decoder c, ?_, isReference_iff.mpr h.parts⟩
  rw [htrim]

theorem exists_card {c : Config} (h : Refers c.entity) :
    ∃ card, Card.new c = .ok card ∧ card.config = c := by
  have hvalid : c.validate = .ok () := validate_eq_ok_iff.mpr (isReference_iff.mpr h.parts)
  unfold Card.new
  rw [hvalid]
  exact ⟨_, rfl, rfl⟩

/-- Whatever value a configuration is read from, its entity is a reference without blanks around it,
a card can be made for it, and what is written for it reads as the same configuration. And every
configuration with such an entity is read from what is written for it. -/
theorem saved_exact (c : Config) :
    (∀ v, ofJson v = .ok c →
      Refers c.entity ∧ (∃ card, Card.new c = .ok card ∧ card.config = c) ∧
        ofJson c.toJson = .ok c) ∧
      (Refers c.entity → ofJson c.toJson = .ok c) := by
  refine ⟨?_, ofJson_toJson⟩
  intro v hv
  have hrefers := refers_of_ofJson hv
  exact ⟨hrefers, exists_card hrefers, ofJson_toJson hrefers⟩

-- Some fields are given, one by its list and one of no meaning, and the entity has blanks around it
-- and two points.
theorem saved_exact_partial :
    let given : Json := .obj
      [("background_override", .arr [.int 0, .int 128, .int 255]),
        ("entity", .str " remote.living.hub\n"),
        ("show_abc", .bool false),
        ("theme", .null),
        ("timing", .arr [.int 18446744073709551615, .int 0]),
        ("type", .str "custom:remote-card")]
    let c : Config :=
      { ofEntity "remote.living.hub" with
        background := some ⟨0, 128, 255⟩
        showAbc := false
        timing := ⟨18446744073709551615, 0, 1000⟩ }
    ofJson given = .ok c ∧ Refers c.entity ∧ (∃ card, Card.new c = .ok card ∧ card.config = c) ∧
      ofJson c.toJson = .ok c := by
  intro given c
  have hgiven : ofJson given = .ok c := rfl
  obtain ⟨hread, hwritten⟩ := saved_exact c
  obtain ⟨hrefers, hcard, -⟩ := hread given hgiven
  exact ⟨hgiven, hrefers, hcard, hwritten hrefers⟩

end Config

end HubCard

import HubCard.Proofs.Variables
import Mathlib.Data.List.Basic

/-!
The background that a painting forces onto the card. It goes by the spelling without dashes alone: a
theme that gives its background under the other spelling sets the one property that it names, and the
card is left without a background.
-/

namespace HubCard

namespace Theme

/-- The value that a theme gives in a mode to the custom property of a name, under either spelling. The
overlay of the mode goes first and, where one of them uses both spellings, the one without dashes. -/
def given? (t : Theme) (dark : Bool) (name : String) : Option String :=
  [t.overlay dark, t.vars].findSome? fun vars =>
    (declared? vars name).or (declared? vars ("--" ++ name))

theorem given?_eq_none_iff {t : Theme} {dark : Bool} {name : String} :
    t.given? dark name = none ↔
      (t.resolve dark).get? name = none ∧ (t.resolve dark).get? ("--" ++ name) = none := by
  simp only [given?, List.findSome?_eq_none_iff, List.forall_mem_cons, get?_resolve,
    Option.or_eq_none_iff]
  constructor
  · rintro ⟨⟨hover, hover'⟩, ⟨hbase, hbase'⟩, -⟩
    exact ⟨⟨hover, hbase⟩, hover', hbase'⟩
  · rintro ⟨⟨hover, hbase⟩, hover', hbase'⟩
    exact ⟨⟨hover, hover'⟩, ⟨hbase, hbase'⟩, nofun⟩

-- A theme that does not use the other spelling gives what it declares under the name itself.
theorem given?_of_none {t : Theme} {dark : Bool} {name : String}
    (h : (t.resolve dark).get? ("--" ++ name) = none) :
    t.given? dark name = (t.resolve dark).get? name := by
  rw [get?_resolve, Option.or_eq_none_iff] at h
  rw [get?_resolve, given?, List.findSome?_cons, List.findSome?_cons, List.findSome?_nil, h.1, h.2,
    Option.or_none, Option.or_none]
  cases declared? (t.overlay dark) name with
  | some value => rfl
  | none => cases declared? t.vars name <;> rfl

end Theme

namespace Painter

/-- The background that a key and its theme ask for: the one of the key itself and, where it has none,
the first that the theme gives to a custom property of the background. -/
def wanted? (themes : Dict Theme) (key : PaintKey) : Option String :=
  key.background.or (backgroundVariables.findSome? ((themeOf themes key).given? key.dark))

theorem background_having (themes : Dict Theme) (key : PaintKey) :
    (having themes key).background =
      key.background.or
        (backgroundVariables.findSome? ((themeOf themes key).resolve key.dark).get?) := by
  rw [← variablesOf_eq]
  rfl

theorem forcedCustom_eq : forcedCustom = backgroundVariables.map ("--" ++ ·) := by
  decide

theorem propertyName_dashed (name : String) : propertyName ("--" ++ name) = "--" ++ name := by
  rw [propertyName, if_pos]
  simp

-- Where no background is asked for, the theme uses neither spelling.
theorem get?_of_wanted?_eq_none {themes : Dict Theme} {key : PaintKey}
    (h : wanted? themes key = none) {p : String} (hp : p ∈ forcedCustom) :
    ((themeOf themes key).resolve key.dark).get? p = none := by
  rw [wanted?, Option.or_eq_none_iff, List.findSome?_eq_none_iff] at h
  rw [forcedCustom_eq] at hp
  rcases List.mem_map.mp hp with ⟨name, hname, rfl⟩
  exact (Theme.given?_eq_none_iff.mp (h.2 name hname)).2

theorem background_having_eq_wanted? {themes : Dict Theme} {key : PaintKey}
    (h : key.background.isSome = true ∨
      ∀ p ∈ forcedCustom, ((themeOf themes key).resolve key.dark).get? p = none) :
    (having themes key).background = wanted? themes key := by
  rw [background_having, wanted?]
  rcases h with hkey | hdashed
  · rcases Option.isSome_iff_exists.mp hkey with ⟨color, hcolor⟩
    rw [hcolor, Option.some_or, Option.some_or]
  · rw [← List.head?_filterMap, ← List.head?_filterMap]
    congr 2
    apply List.filterMap_congr
    intro name hname
    refine (Theme.given?_of_none (hdashed _ ?_)).symm
    rw [forcedCustom_eq]
    exact List.mem_map_of_mem hname

-- Without the spelling that has no dashes, a property has the value of the other one.
theorem map_source?_dashed {vars : Dict String} (h : vars.Ordered) {name : String}
    (hnone : vars.get? name = none) :
    (source? vars ("--" ++ name)).map (·.2) = vars.get? ("--" ++ name) := by
  cases hsource : source? vars ("--" ++ name) with
  | none =>
    cases hget : vars.get? ("--" ++ name) with
    | none => rfl
    | some v =>
      exact absurd (propertyName_dashed name) ((source?_eq_none_iff h).mp hsource _ v hget)
  | some entry =>
    rcases entry with ⟨n, v⟩
    rcases (source?_eq_some_iff h).mp hsource with ⟨hget, hn, -⟩
    by_cases hsame : n = "--" ++ name
    · rw [← hsame, hget]
      rfl
    · -- the property has but the two spellings
      have hbare : n = name := by
        rcases spelling_of_propertyName hn with hdashed | hdashed
        · exact absurd hdashed hsame
        · exact (String.append_right_inj "--").mp hdashed
      rw [hbare, hnone] at hget
      cases hget

theorem get?_coat_of_custom {p : String} (hp : p ∈ forcedCustom) (themes : Dict Theme)
    (key : PaintKey) :
    (Mutation.runAll .empty (coat themes key)).get? p =
      (having themes key).background.or (((themeOf themes key).resolve key.dark).get? p) := by
  have hordered : (variablesOf themes key).Ordered := by
    rw [variablesOf_eq]
    exact Dict.ordered_ofList _
  have hnot : ∀ p ∈ forcedCustom, p ∉ forcedPlain := by decide
  rw [← variablesOf_eq, coat, Mutation.runAll_append, get?_forceBackground, if_neg (hnot p hp),
    if_pos hp, get?_setVariables, Dict.get?_empty, Option.or_none]
  show (having themes key).background.or _ = _
  cases hbackground : (having themes key).background with
  | some color => rfl
  | none =>
    rw [background_having, Option.or_eq_none_iff, ← variablesOf_eq, List.findSome?_eq_none_iff]
      at hbackground
    rw [forcedCustom_eq] at hp
    rcases List.mem_map.mp hp with ⟨name, hname, rfl⟩
    exact map_source?_dashed hordered (hbackground.2 name hname)

-- All four properties have the background that is asked for once the painter has found it.
theorem get?_coat_of_wanted? {themes : Dict Theme} {key : PaintKey}
    (hfound : (having themes key).background = wanted? themes key) {p : String}
    (hp : p ∈ forcedCustom ++ forcedPlain) :
    (Mutation.runAll .empty (coat themes key)).get? p = wanted? themes key := by
  rcases List.mem_append.mp hp with hp | hp
  · rw [get?_coat_of_custom hp, hfound]
    cases hnone : wanted? themes key with
    | some color => rfl
    | none => rw [Option.none_or, get?_of_wanted?_eq_none hnone hp]
  · rw [get?_coat_of_forced hp, hfound]

end Painter

namespace Canvas

/-- The canvas after a sequence of paintings, each with the themes that there are at the time. -/
def paintOver (c : Canvas) (paintings : List (Dict Theme × PaintKey)) : Canvas :=
  paintings.foldl (fun c (themes, key) => c.paint themes key) c

theorem tidy_paintOver {c : Canvas} (h : c.Tidy) (paintings : List (Dict Theme × PaintKey)) :
    (c.paintOver paintings).Tidy := by
  induction paintings generalizing c with
  | nil => exact h
  | cons painting paintings ih => exact ih (h.paint painting.1 painting.2)

theorem paint_paintOver {paintings : List (Dict Theme × PaintKey)} {themes : Dict Theme}
    {key : PaintKey} (hwork : ((blank.paintOver paintings).painter.paint themes key).2.1 ≠ []) :
    (blank.paintOver paintings).paint themes key =
      ⟨.having themes key, Mutation.runAll .empty (Painter.coat themes key)⟩ := by
  have hne : (blank.paintOver paintings).painter.lastKey ≠ some key := by
    intro hsame
    rw [Painter.paint_of_eq hsame] at hwork
    exact hwork rfl
  have htidy : (blank.paintOver paintings).Tidy := tidy_paintOver (tidy_of_empty .new) paintings
  rw [htidy.paint_eq hne, paint_blank]

/-- After any sequence of paintings, each with the themes of its time, one that does work leaves this
background: the one of its key and, where that has none, the first that the theme of its mode declares
for one of the two variables, spelled without dashes. The plain properties have it, or are not set. The
custom properties have it or, without it, what is declared for their other spelling. So painter and
properties agree on the background that key and theme ask for exactly when that is the one that has
been found; so it is where the key has one, and where the theme does not use the other spelling. -/
theorem background_exact {paintings : List (Dict Theme × PaintKey)} {themes : Dict Theme}
    {key : PaintKey} (hwork : ((blank.paintOver paintings).painter.paint themes key).2.1 ≠ []) :
    let t := Painter.themeOf themes key
    let value? := fun n => (Theme.declared? (t.overlay key.dark) n).or (Theme.declared? t.vars n)
    let found? := key.background.or (Painter.backgroundVariables.findSome? value?)
    let wanted? := Painter.wanted? themes key
    let after := (blank.paintOver paintings).paint themes key
    after.painter.background = found? ∧
    (∀ p ∈ Painter.forcedPlain, after.style.get? p = found?) ∧
    (∀ p ∈ Painter.forcedCustom, after.style.get? p = found?.or (value? p)) ∧
    ((after.painter.background = wanted? ∧
        ∀ p ∈ Painter.forcedCustom ++ Painter.forcedPlain, after.style.get? p = wanted?) ↔
      found? = wanted?) ∧
    (key.background.isSome = true ∨ (∀ p ∈ Painter.forcedCustom, value? p = none) →
      found? = wanted?) := by
  intro t value? found? wanted? after
  have hafter : after =
      ⟨.having themes key, Mutation.runAll .empty (Painter.coat themes key)⟩ :=
    paint_paintOver hwork
  have hvalue : value? = (t.resolve key.dark).get? :=
    funext fun n => (t.get?_resolve key.dark n).symm
  have hfound : (Painter.having themes key).background = found? := by
    rw [Painter.background_having, ← hvalue]
  rw [hafter, ← hfound, hvalue]
  refine ⟨rfl, ?_, ?_, ⟨And.left, ?_⟩, Painter.background_having_eq_wanted?⟩
  · exact fun p hp => Painter.get?_coat_of_forced hp themes key .empty
  · exact fun p hp => Painter.get?_coat_of_custom hp themes key
  · exact fun hwanted => ⟨hwanted, fun p hp => Painter.get?_coat_of_wanted? hwanted hp⟩

end Canvas

namespace Sample

/-- A theme by the name of `t` that declares one variable. -/
def declaring (name value : String) : Dict Theme :=
  [("t", ⟨none, [(name, .str value)]⟩)]

end Sample

namespace Canvas

open Sample

-- A theme that gives its background under a spelling, painted after it had the other one.
theorem background_exact_declaring :
    let themes := declaring "ha-card-background" "blue"
    let before := blank.paintOver [(declaring "--ha-card-background" "red", light)]
    let key : PaintKey := { light with dark := true }
    (before.paint themes key).painter.background = some "blue" ∧
      ∀ p ∈ Painter.forcedCustom ++ Painter.forcedPlain,
        (before.paint themes key).style.get? p = some "blue" := by
  intro themes before key
  have hwork : (before.painter.paint themes key).2.1 ≠ [] := by decide +kernel
  have hwanted : Painter.wanted? themes key = some "blue" := by decide +kernel
  rcases background_exact hwork with ⟨-, -, -, hagree, hspelled⟩
  rw [← hwanted]
  exact hagree.mpr (hspelled (.inr (by decide +kernel)))

/-- A theme that gives its background under the other spelling has only the property of that name. -/
theorem dashed_background_missed :
    let themes := declaring "--ha-card-background" "red"
    let after := blank.paint themes light
    Painter.wanted? themes light = some "red" ∧ after.painter.background = none ∧
      after.style = [("--ha-card-background", "red")] := by
  refine ⟨?_, ?_, ?_⟩ <;> decide +kernel

end Canvas

end HubCard

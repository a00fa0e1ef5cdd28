import HubCard.Proofs.Painting

/-!
What the variables of a theme make of a property. A variable may be spelled with its two dashes or
without, and both spellings name the same property. The overlay of a mode wins over the theme under
each spelling by itself; where the two meet in a property, the greater spelling wins, whichever of
them it is from.
-/

namespace HubCard

namespace Theme

/-- The usable value that variables declare for a name, if they declare one. -/
def declared? (vars : Dict Json) (name : String) : Option String :=
  (Dict.ofList (usable vars)).get? name

/-- In a mode a name has the value of the overlay and, where that declares none, that of the theme. -/
theorem get?_resolve (t : Theme) (dark : Bool) (name : String) :
    (t.resolve dark).get? name =
      (declared? (t.overlay dark) name).or (declared? t.vars name) :=
  Dict.get?_ofList_append ..

end Theme

namespace Painter

/-- The theme of a key; one that nobody knows declares nothing. -/
def themeOf (themes : Dict Theme) (key : PaintKey) : Theme :=
  (key.theme.bind (themes.get? ·)).getD ⟨none, .empty⟩

theorem variablesOf_eq (themes : Dict Theme) (key : PaintKey) :
    variablesOf themes key = (themeOf themes key).resolve key.dark := by
  unfold variablesOf themeOf
  cases key.theme.bind (themes.get? ·) <;> rfl

/-! ## Spellings -/

theorem spelling_of_propertyName {name p : String} (h : propertyName name = p) :
    name = p ∨ "--" ++ name = p := by
  unfold propertyName at h
  split at h
  · exact .inl h
  · exact .inr h

-- A property has no more than two spellings.
theorem eq_or_eq_of_propertyName {p n m k : String} (hn : propertyName n = p)
    (hm : propertyName m = p) (hne : n ≠ m) (hk : propertyName k = p) : k = n ∨ k = m := by
  have hbare : ∀ {x y : String}, "--" ++ x = p → "--" ++ y = p → x = y := fun hx hy =>
    (String.append_right_inj "--").mp (hx.trans hy.symm)
  rcases spelling_of_propertyName hn with rfl | hn
  · rcases spelling_of_propertyName hm with rfl | hm
    · exact absurd rfl hne
    · exact (spelling_of_propertyName hk).imp_right fun hk => hbare hk hm
  · rcases spelling_of_propertyName hm with rfl | hm
    · exact (spelling_of_propertyName hk).symm.imp_left fun hk => hbare hk hn
    · exact absurd (hbare hn hm) hne

/-! ## The variable behind a property -/

/-- The last of the variables that name a property. -/
def source? (vars : Dict String) (p : String) : Option (String × String) :=
  vars.reverse.find? (propertyName ·.1 = p)

theorem get?_setVariables (vars style : Dict String) (p : String) :
    (Mutation.runAll style (setVariables vars)).get? p =
      ((source? vars p).map (·.2)).or (style.get? p) := by
  induction vars generalizing style with
  | nil => rfl
  | cons head vars ih =>
    rcases head with ⟨n, v⟩
    show (Mutation.runAll (style.insert (propertyName n) v) (setVariables vars)).get? p = _
    rw [ih, Dict.get?_insert, source?, source?, List.reverse_cons, List.find?_append]
    cases List.find? _ vars.reverse with
    | some entry => rfl
    | none =>
      by_cases hn : propertyName n = p
      · simp [hn]
      · simp [hn, Ne.symm hn]

theorem source?_eq_none_iff {vars : Dict String} (h : vars.Ordered) {p : String} :
    source? vars p = none ↔ ∀ n v, vars.get? n = some v → propertyName n ≠ p := by
  simp [source?, h.get?_eq_some_iff]

theorem of_source?_eq_some {vars : Dict String} (h : vars.Ordered) {p n v : String}
    (hsource : source? vars p = some (n, v)) :
    vars.get? n = some v ∧ propertyName n = p ∧
      ∀ m w, vars.get? m = some w → propertyName m = p → m ≤ n := by
  rcases List.find?_eq_some_iff_append.mp hsource with ⟨hname, after, before, hsplit, hafter⟩
  have hvars : vars = before.reverse ++ (n, v) :: after.reverse := by
    rw [← List.reverse_reverse vars, hsplit]
    simp
  refine ⟨?_, by simpa using hname, ?_⟩
  · rw [h.get?_eq_some_iff, hvars]
    simp
  · intro m w hm hnames
    rw [h.get?_eq_some_iff, hvars, List.mem_append, List.mem_cons, Prod.mk.injEq] at hm
    rcases hm with hm | ⟨rfl, -⟩ | hm
    · -- what stands before it is below it
      rw [hvars] at h
      have hbelow := (List.pairwise_append.mp h).2.2 _ hm (n, v) List.mem_cons_self
      exact String.not_lt.mp (String.lt_asymm hbelow)
    · exact String.le_refl m
    · -- and what stands after it names something else
      have hother := hafter (m, w) (List.mem_reverse.mp hm)
      simp [hnames] at hother

/-- In a dictionary in order that is the greatest of their names. -/
theorem source?_eq_some_iff {vars : Dict String} (h : vars.Ordered) {p n v : String} :
    source? vars p = some (n, v) ↔
      vars.get? n = some v ∧ propertyName n = p ∧
        ∀ m w, vars.get? m = some w → propertyName m = p → m ≤ n := by
  refine ⟨of_source?_eq_some h, ?_⟩
  rintro ⟨hget, hname, hgreatest⟩
  cases hsource : source? vars p with
  | none => exact absurd hname ((source?_eq_none_iff h).mp hsource n v hget)
  | some entry =>
    rcases entry with ⟨m, w⟩
    rcases of_source?_eq_some h hsource with ⟨hget', hname', hgreatest'⟩
    obtain rfl : m = n :=
      String.le_antisymm (hgreatest m w hget' hname') (hgreatest' n v hget hname)
    rw [hget] at hget'
    rw [Option.some.inj hget']

/-! ## Where an overlay meets its theme -/

/-- A value is the one under the greatest spelling of a property that is declared at all, by an overlay
or, where that declares none, by its theme. -/
def Prevails (over? base? : String → Option String) (p v : String) : Prop :=
  ∃ n, propertyName n = p ∧ (over? n).or (base? n) = some v ∧
    ∀ m w, (over? m).or (base? m) = some w → propertyName m = p → m ≤ n

-- It is from the overlay unless the theme alone declares a greater spelling, with another value.
theorem Prevails.overlaid_iff {over? base? : String → Option String} {p v : String}
    (h : Prevails over? base? p v) {n w : String} (hn : propertyName n = p)
    (hover : over? n = some w) :
    (∃ m, propertyName m = p ∧ over? m = some v) ↔
      ¬ ∃ m u, propertyName m = p ∧ n < m ∧ over? m = none ∧ base? m = some u ∧ u ≠ w := by
  rcases h with ⟨g, hg, hvalue, hgreatest⟩
  constructor
  · rintro ⟨k, hk, hkv⟩ ⟨m, u, hm, hlt, hnone, hbase, huw⟩
    have hspelling : ∀ {k}, propertyName k = p → k = n ∨ k = m :=
      eq_or_eq_of_propertyName hn hm fun heq => String.lt_irrefl n (heq ▸ hlt)
    have hmu : (over? m).or (base? m) = some u := by rw [hnone, hbase, Option.none_or]
    -- the greater spelling prevails, and there is no third one that the value could be from
    rcases hspelling hg with rfl | rfl
    · exact String.not_lt.mpr (hgreatest m u hmu hm) hlt
    · rw [hmu] at hvalue
      rcases hspelling hk with rfl | rfl
      · rw [hkv] at hover
        exact huw (Option.some.inj (hvalue.trans hover))
      · rw [hnone] at hkv
        cases hkv
  · intro hnot
    cases hgover : over? g with
    | some u =>
      rw [hgover, Option.some_or] at hvalue
      exact ⟨g, hg, hgover.trans hvalue⟩
    | none =>
      rw [hgover, Option.none_or] at hvalue
      have hle : n ≤ g := hgreatest n w (by rw [hover, Option.some_or]) hn
      have hlt : n < g := by
        apply Classical.byContradiction
        intro hge
        obtain rfl : n = g := String.le_antisymm hle (String.not_lt.mp hge)
        rw [hgover] at hover
        cases hover
      have hvw : v = w := Classical.byContradiction fun hne =>
        hnot ⟨g, v, hg, hlt, hgover, hvalue, hne⟩
      exact ⟨n, hn, by rw [hover, hvw]⟩

theorem map_source?_eq_some_iff (t : Theme) (dark : Bool) (p v : String) :
    (source? (t.resolve dark) p).map (·.2) = some v ↔
      Prevails (Theme.declared? (t.overlay dark)) (Theme.declared? t.vars) p v := by
  have hordered : (t.resolve dark).Ordered := Dict.ordered_ofList _
  simp only [Prevails, ← Theme.get?_resolve]
  rw [Option.map_eq_some_iff]
  constructor
  · rintro ⟨⟨n, _⟩, hsource, rfl⟩
    rcases (source?_eq_some_iff hordered).mp hsource with ⟨hget, hname, hgreatest⟩
    exact ⟨n, hname, hget, hgreatest⟩
  · rintro ⟨n, hname, hget, hgreatest⟩
    exact ⟨(n, v), (source?_eq_some_iff hordered).mpr ⟨hget, hname, hgreatest⟩, rfl⟩

theorem isSome_source?_iff (t : Theme) (dark : Bool) (p : String) :
    (source? (t.resolve dark) p).isSome = true ↔
      ∃ n, propertyName n = p ∧ ((Theme.declared? t.vars n).isSome = true ∨
        (Theme.declared? (t.overlay dark) n).isSome = true) := by
  have hordered : (t.resolve dark).Ordered := Dict.ordered_ofList _
  rw [← Option.ne_none_iff_isSome, Ne, source?_eq_none_iff hordered]
  simp only [Theme.get?_resolve]
  constructor
  · intro hnot
    simp only [Classical.not_forall, Classical.not_not] at hnot
    rcases hnot with ⟨n, v, hget, hname⟩
    refine ⟨n, hname, ?_⟩
    rcases Option.or_eq_some_iff.mp hget with hover | ⟨-, hbase⟩
    · exact .inr (Option.isSome_of_eq_some hover)
    · exact .inl (Option.isSome_of_eq_some hbase)
  · rintro ⟨n, hname, hdeclared⟩ hnone
    have hget : ((Theme.declared? (t.overlay dark) n).or (Theme.declared? t.vars n)).isSome = true := by
      rw [Option.isSome_or, Bool.or_eq_true]
      exact hdeclared.symm
    rcases Option.isSome_iff_exists.mp hget with ⟨v, hv⟩
    exact hnone n v hv hname

end Painter

namespace Canvas

/-- On an empty style a property that no background is forced onto gets the value of the last variable
that names it. -/
theorem get?_paint_empty {painter : Painter} {key : PaintKey} (hne : painter.lastKey ≠ some key)
    (themes : Dict Theme) {p : String} (hcustom : p ∉ Painter.forcedCustom)
    (hplain : p ∉ Painter.forcedPlain) :
    (paint themes ⟨painter, .empty⟩ key).style.get? p =
      (Painter.source? (Painter.variablesOf themes key) p).map (·.2) := by
  rw [(tidy_of_empty painter).paint_eq hne, paint_blank]
  dsimp only
  rw [Painter.coat, Mutation.runAll_append, Painter.get?_forceBackground, if_neg hplain,
    if_neg hcustom, Painter.get?_setVariables, Dict.get?_empty, Option.or_none]

/-- Painted on an empty style, a property that no background is forced onto is set exactly when a
usable value is declared, by the theme or by the overlay of its mode, for a variable that names it. Its
value is the one under the greatest spelling that is declared, where the overlay goes first. So when
the overlay declares the property, its value is one of the overlay unless the theme alone declares a
greater spelling, with another value. -/
theorem overlay_exact {painter : Painter} {key : PaintKey} (hne : painter.lastKey ≠ some key)
    (themes : Dict Theme) {p : String} (hcustom : p ∉ Painter.forcedCustom)
    (hplain : p ∉ Painter.forcedPlain) :
    let t := Painter.themeOf themes key
    let base? := Theme.declared? t.vars
    let over? := Theme.declared? (t.overlay key.dark)
    let value? := (paint themes ⟨painter, .empty⟩ key).style.get? p
    (value?.isSome = true ↔
      ∃ n, Painter.propertyName n = p ∧ ((base? n).isSome = true ∨ (over? n).isSome = true)) ∧
    (∀ v, value? = some v ↔ Painter.Prevails over? base? p v) ∧
    ∀ n w, Painter.propertyName n = p → over? n = some w →
      ((∃ m, Painter.propertyName m = p ∧ (over? m).isSome = true ∧ over? m = value?) ↔
        ¬ ∃ m u, Painter.propertyName m = p ∧ n < m ∧ over? m = none ∧ base? m = some u ∧ u ≠ w) := by
  intro t base? over? value?
  have hvalue : value? = (Painter.source? (t.resolve key.dark) p).map (·.2) := by
    rw [← Painter.variablesOf_eq]
    exact get?_paint_empty hne themes hcustom hplain
  have hset : value?.isSome = true ↔ ∃ n, Painter.propertyName n = p ∧
      ((base? n).isSome = true ∨ (over? n).isSome = true) := by
    rw [hvalue, Option.isSome_map]
    exact Painter.isSome_source?_iff t key.dark p
  have hprevails : ∀ v, value? = some v ↔ Painter.Prevails over? base? p v := by
    intro v
    rw [hvalue]
    exact Painter.map_source?_eq_some_iff t key.dark p v
  refine ⟨hset, hprevails, ?_⟩
  intro n w hn hover
  have hsome : value?.isSome = true :=
    hset.mpr ⟨n, hn, .inr (Option.isSome_of_eq_some hover)⟩
  rcases Option.isSome_iff_exists.mp hsome with ⟨v, hv⟩
  rw [hv, ← ((hprevails v).mp hv).overlaid_iff hn hover]
  apply exists_congr
  intro m
  exact and_congr_right fun _ => and_iff_right_of_imp Option.isSome_of_eq_some

end Canvas

namespace Sample

/-- A theme by the name of `t` that declares one variable, which its light mode declares under another
spelling. -/
def respelled (name lightName : String) : Dict Theme :=
  [("t", ⟨some ⟨[(lightName, .str "overlay")], .empty⟩, [(name, .str "base")]⟩)]

/-- The theme `t` in its light mode. -/
def light : PaintKey := ⟨some "t", none, false⟩

end Sample

namespace Canvas

open Sample

-- Without its dashes the name is the greater one, and so the overlay wins.
theorem overlay_exact_respelled :
    let style := (paint (respelled "--x" "x") ⟨.new, .empty⟩ light).style
    ∃ m, Painter.propertyName m = "--x" ∧
      Theme.declared? ((Painter.themeOf (respelled "--x" "x") light).overlay false) m =
        style.get? "--x" := by
  intro style
  have hbase : Dict.ofList (Theme.usable (Painter.themeOf (respelled "--x" "x") light).vars) =
      [("--x", "base")] := by decide +kernel
  have hover : Theme.declared? ((Painter.themeOf (respelled "--x" "x") light).overlay false) "x" =
      some "overlay" := by decide +kernel
  have hfresh : Painter.new.lastKey ≠ some light := nofun
  have hcustom : "--x" ∉ Painter.forcedCustom := by decide
  have hplain : "--x" ∉ Painter.forcedPlain := by decide
  rcases overlay_exact hfresh (respelled "--x" "x") hcustom hplain with ⟨-, -, hoverlaid⟩
  have hwins := (hoverlaid "x" "overlay" (by decide) hover).mpr (by
    rintro ⟨m, u, -, hlt, -, hm, -⟩
    rw [Theme.declared?, hbase, Dict.get?] at hm
    split at hm
    · rename_i hname
      subst hname
      exact absurd hlt (by decide)
    · cases hm)
  rcases hwins with ⟨m, hm, -, hvalue⟩
  exact ⟨m, hm, hvalue⟩

/-- With its dashes it is the smaller one: the light mode declares the property, and yet the value is
the one that only the theme declares. -/
theorem overlay_beaten :
    let over? := Theme.declared? ((Painter.themeOf (respelled "x" "--x") light).overlay false)
    let style := (paint (respelled "x" "--x") ⟨.new, .empty⟩ light).style
    over? "--x" = some "overlay" ∧ style.get? "--x" = some "base" ∧
      ¬ ∃ m, Painter.propertyName m = "--x" ∧ over? m = style.get? "--x" := by
  intro over? style
  have hover : Dict.ofList (Theme.usable ((Painter.themeOf (respelled "x" "--x") light).overlay
      false)) = [("--x", "overlay")] := by decide +kernel
  have hvalue : style.get? "--x" = some "base" := by decide +kernel
  refine ⟨by decide +kernel, hvalue, ?_⟩
  rintro ⟨m, -, hm⟩
  have hbase : Theme.declared? ((Painter.themeOf (respelled "x" "--x") light).overlay false) m =
      some "base" := hm.trans hvalue
  rw [Theme.declared?, hover, Dict.get?] at hbase
  split at hbase
  · exact absurd hbase (by decide)
  · cases hbase

end Canvas

end HubCard

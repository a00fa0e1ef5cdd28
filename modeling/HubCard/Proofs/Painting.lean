import HubCard.Theme.Painter

/-!
A painting leaves nothing of the ones before it. The painter remembers what it has to take back, and
that is all it needs to: whatever has been painted in between, the style ends up as if the last theme
had been painted onto an empty one.
-/

namespace HubCard

namespace Mutation

/-- The property that a change is about. -/
def name : Mutation → String
  | .set name _ => name
  | .remove name => name

theorem runAll_append (style : Dict String) (ms more : List Mutation) :
    runAll style (ms ++ more) = runAll (runAll style ms) more :=
  List.foldl_append

theorem get?_run_of_ne {m : Mutation} {n : String} (h : m.name ≠ n) (style : Dict String) :
    (run style m).get? n = style.get? n := by
  cases m with
  | set name value => exact Dict.get?_insert_of_ne style value (Ne.symm h)
  | remove name =>
    rw [run, Dict.get?_erase]
    exact if_neg (Ne.symm h)

-- What a change makes of a property depends on nothing but the property.
theorem get?_run_congr (m : Mutation) {style style' : Dict String} {n : String}
    (h : style.get? n = style'.get? n) : (run style m).get? n = (run style' m).get? n := by
  cases m with
  | set name value => simp only [run, Dict.get?_insert, h]
  | remove name => simp only [run, Dict.get?_erase, h]

theorem ordered_run (m : Mutation) {style : Dict String} (h : style.Ordered) :
    (run style m).Ordered := by
  cases m with
  | set name value => exact h.insert name value
  | remove name => exact h.erase name

theorem get?_runAll_of_ne {ms : List Mutation} {n : String} (h : ∀ m ∈ ms, m.name ≠ n)
    (style : Dict String) : (runAll style ms).get? n = style.get? n := by
  induction ms generalizing style with
  | nil => rfl
  | cons m ms ih =>
    have hrest := ih (fun m' hm' => h m' (List.mem_cons_of_mem _ hm')) (run style m)
    exact hrest.trans (get?_run_of_ne (h m List.mem_cons_self) style)

theorem get?_runAll_congr (ms : List Mutation) {style style' : Dict String} {n : String}
    (h : style.get? n = style'.get? n) : (runAll style ms).get? n = (runAll style' ms).get? n := by
  induction ms generalizing style style' with
  | nil => exact h
  | cons m ms ih => exact ih (get?_run_congr m h)

theorem ordered_runAll (ms : List Mutation) {style : Dict String} (h : style.Ordered) :
    (runAll style ms).Ordered := by
  induction ms generalizing style with
  | nil => exact h
  | cons m ms ih => exact ih (ordered_run m h)

theorem get?_runAll_remove (names : List String) (style : Dict String) (n : String) :
    (runAll style (names.map .remove)).get? n = if n ∈ names then none else style.get? n := by
  induction names generalizing style with
  | nil => simp [runAll]
  | cons name names ih =>
    show (runAll (style.erase name) (names.map .remove)).get? n = _
    rw [ih, Dict.get?_erase]
    by_cases hname : n = name <;> simp [hname]

theorem get?_runAll_set (names : List String) (value : String) (style : Dict String) (n : String) :
    (runAll style (names.map (.set · value))).get? n =
      if n ∈ names then some value else style.get? n := by
  induction names generalizing style with
  | nil => simp [runAll]
  | cons name names ih =>
    show (runAll (style.insert name value) (names.map (.set · value))).get? n = _
    rw [ih, Dict.get?_insert]
    by_cases hname : n = name <;> simp [hname]

end Mutation

namespace Painter

/-- The changes that put the theme of a key on. -/
def coat (themes : Dict Theme) (key : PaintKey) : List Mutation :=
  setVariables (variablesOf themes key) ++
    forceBackground (backgroundOf key (variablesOf themes key))

/-- What the painter remembers of having painted the theme of a key. -/
def having (themes : Dict Theme) (key : PaintKey) : Painter :=
  ⟨some key, appliedBy (variablesOf themes key) (backgroundOf key (variablesOf themes key)),
    backgroundOf key (variablesOf themes key)⟩

theorem paint_of_ne {p : Painter} {key : PaintKey} (h : p.lastKey ≠ some key)
    (themes : Dict Theme) :
    (p.paint themes key).1 = having themes key ∧
      (p.paint themes key).2.1 = p.applied.keys.map .remove ++ coat themes key := by
  rw [paint, if_neg h, coat, ← List.append_assoc]
  exact ⟨rfl, rfl⟩

theorem paint_of_eq {p : Painter} {key : PaintKey} (h : p.lastKey = some key)
    (themes : Dict Theme) : p.paint themes key = (p, [], 0) := by
  rw [paint, if_pos h]

theorem lastKey_paint (p : Painter) (themes : Dict Theme) (key : PaintKey) :
    (p.paint themes key).1.lastKey = some key := by
  by_cases h : p.lastKey = some key
  · rw [paint_of_eq h]
    exact h
  · rw [(paint_of_ne h themes).1]
    rfl

theorem length_forceBackground (background : Option String) :
    (forceBackground background).length = forcedCount background := by
  cases background <;> rfl

/-- A painting makes as many changes as it counts. -/
theorem count_paint (p : Painter) (themes : Dict Theme) (key : PaintKey) :
    (p.paint themes key).2.2 = (p.paint themes key).2.1.length := by
  unfold paint
  split
  · rfl
  · simp only [setVariables, Dict.keys, List.length_append, List.length_map, length_forceBackground]

-- The background is set or taken back in any case, so a painting is never without changes.
theorem count_paint_eq_zero_iff {p : Painter} {themes : Dict Theme} {key : PaintKey} :
    (p.paint themes key).2.2 = 0 ↔ p.lastKey = some key := by
  have hforced : ∀ background, 0 < forcedCount background
    | some _ | none => by simp [forcedCount, forcedCustom, forcedPlain]
  unfold paint
  split
  · rename_i h
    exact iff_of_true rfl h
  · rename_i h
    refine iff_of_false ?_ h
    have hpos := hforced (backgroundOf key (variablesOf themes key))
    dsimp only
    omega

/-! ## One property -/

theorem get?_forceBackground (background : Option String) (style : Dict String) (n : String) :
    (Mutation.runAll style (forceBackground background)).get? n =
      if n ∈ forcedPlain then background
      else if n ∈ forcedCustom then background.or (style.get? n)
      else style.get? n := by
  cases background with
  | none =>
    rw [forceBackground, Mutation.get?_runAll_remove, Option.none_or, ite_self]
  | some color =>
    rw [forceBackground, Mutation.get?_runAll_set, Option.some_or]
    by_cases hplain : n ∈ forcedPlain <;> simp [hplain]

-- The plain background properties show the background, whatever they were before.
theorem get?_coat_of_forced {n : String} (h : n ∈ forcedPlain) (themes : Dict Theme)
    (key : PaintKey) (style : Dict String) :
    (Mutation.runAll style (coat themes key)).get? n = (having themes key).background := by
  rw [coat, Mutation.runAll_append, get?_forceBackground, if_pos h]
  rfl

-- Whatever else a painting touches it remembers.
theorem name_of_mem_coat {themes : Dict Theme} {key : PaintKey} {m : Mutation}
    (h : m ∈ coat themes key) :
    m.name ∈ (having themes key).applied.keys ∨ m.name ∈ forcedPlain := by
  have happlied : ∀ n, n ∈ (having themes key).applied.keys ↔
      n ∈ (variablesOf themes key).keys.map propertyName ∨
        (having themes key).background.isSome = true ∧ n ∈ forcedCustom := by
    intro n
    show n ∈ (appliedBy (variablesOf themes key) (having themes key).background).keys ↔ _
    rw [appliedBy, Dict.mem_keys_ofList, List.map_map]
    cases (having themes key).background <;> simp
  rw [happlied]
  rcases List.mem_append.mp h with hset | hforced
  · left
    left
    rcases List.mem_map.mp hset with ⟨entry, hentry, rfl⟩
    exact List.mem_map_of_mem (List.mem_map_of_mem hentry)
  · change m ∈ forceBackground (having themes key).background at hforced
    cases hbackground : (having themes key).background with
    | none =>
      rw [hbackground] at hforced
      rcases List.mem_map.mp hforced with ⟨n, hn, rfl⟩
      exact .inr hn
    | some color =>
      rw [hbackground] at hforced
      rcases List.mem_map.mp hforced with ⟨n, hn, rfl⟩
      rcases List.mem_append.mp hn with hcustom | hplain
      · exact .inl (.inr ⟨rfl, hcustom⟩)
      · exact .inr hplain

end Painter

/-- A painter, and the style that it alone works on. -/
structure Canvas where
  painter : Painter
  style : Dict String
  deriving Repr, DecidableEq

namespace Canvas

def blank : Canvas := ⟨.new, .empty⟩

def paint (themes : Dict Theme) (c : Canvas) (key : PaintKey) : Canvas :=
  let (painter, mutations, _) := c.painter.paint themes key
  ⟨painter, Mutation.runAll c.style mutations⟩

/-- The canvas after a sequence of paintings. -/
def paintAll (themes : Dict Theme) (c : Canvas) (keys : List PaintKey) : Canvas :=
  keys.foldl (paint themes) c

theorem paint_of_eq {c : Canvas} {key : PaintKey} (h : c.painter.lastKey = some key)
    (themes : Dict Theme) : c.paint themes key = c := by
  rw [paint, Painter.paint_of_eq h]
  rfl

theorem paint_of_ne {c : Canvas} {key : PaintKey} (h : c.painter.lastKey ≠ some key)
    (themes : Dict Theme) :
    c.paint themes key =
      ⟨.having themes key,
        Mutation.runAll (Mutation.runAll c.style (c.painter.applied.keys.map .remove))
          (Painter.coat themes key)⟩ := by
  rcases Painter.paint_of_ne h themes with ⟨hpainter, hmutations⟩
  simp only [paint, hpainter, hmutations, Mutation.runAll_append]

theorem paint_blank (themes : Dict Theme) (key : PaintKey) :
    blank.paint themes key =
      ⟨.having themes key, Mutation.runAll .empty (Painter.coat themes key)⟩ :=
  paint_of_ne (by simp [blank, Painter.new]) themes

theorem lastKey_paint (themes : Dict Theme) (c : Canvas) (key : PaintKey) :
    (c.paint themes key).painter.lastKey = some key :=
  c.painter.lastKey_paint themes key

/-- Whatever the style has is known to the painter, or is a plain property of the background. -/
structure Tidy (c : Canvas) : Prop where
  ordered : c.style.Ordered
  known : ∀ n, (c.style.get? n).isSome = true → n ∈ c.painter.applied.keys ∨ n ∈ Painter.forcedPlain

theorem tidy_of_empty (painter : Painter) : Tidy ⟨painter, .empty⟩ where
  ordered := Dict.ordered_empty
  known := fun _ h => by cases h

theorem tidy_paint_blank (themes : Dict Theme) (key : PaintKey) : (blank.paint themes key).Tidy := by
  rw [paint_blank]
  constructor
  · exact Mutation.ordered_runAll _ Dict.ordered_empty
  · intro n hset
    apply Classical.byContradiction
    intro hunknown
    rw [not_or] at hunknown
    have huntouched : ∀ m ∈ Painter.coat themes key, m.name ≠ n := by
      rintro m hm rfl
      rcases Painter.name_of_mem_coat hm with happlied | hforced
      · exact hunknown.1 happlied
      · exact hunknown.2 hforced
    rw [Mutation.get?_runAll_of_ne huntouched] at hset
    cases hset

-- A painting wipes out whatever there is on a tidy canvas.
theorem Tidy.paint_eq {c : Canvas} (h : c.Tidy) {key : PaintKey} (hne : c.painter.lastKey ≠ some key)
    (themes : Dict Theme) : c.paint themes key = blank.paint themes key := by
  rw [paint_of_ne hne, paint_blank]
  congr 1
  apply Dict.ext_of_get?
  · exact Mutation.ordered_runAll _ (Mutation.ordered_runAll _ h.ordered)
  · exact Mutation.ordered_runAll _ Dict.ordered_empty
  · intro n
    by_cases hplain : n ∈ Painter.forcedPlain
    · rw [Painter.get?_coat_of_forced hplain, Painter.get?_coat_of_forced hplain]
    · -- a property that is there and known is taken back
      apply Mutation.get?_runAll_congr
      rw [Mutation.get?_runAll_remove, Dict.get?_empty]
      split
      · rfl
      · rename_i hunknown
        rw [← Option.not_isSome_iff_eq_none]
        intro hset
        rcases h.known n hset with hknown | hforced
        · exact hunknown hknown
        · exact hplain hforced

theorem Tidy.paint {c : Canvas} (h : c.Tidy) (themes : Dict Theme) (key : PaintKey) :
    (c.paint themes key).Tidy := by
  by_cases hsame : c.painter.lastKey = some key
  · rw [paint_of_eq hsame]
    exact h
  · rw [h.paint_eq hsame]
    exact tidy_paint_blank themes key

-- The second of two paintings wipes out the first one.
theorem paint_paint (themes : Dict Theme) (first second : PaintKey) :
    (blank.paint themes first).paint themes second = blank.paint themes second := by
  by_cases hsame : first = second
  · subst hsame
    exact paint_of_eq (lastKey_paint themes blank first) themes
  · apply (tidy_paint_blank themes first).paint_eq
    rw [lastKey_paint]
    exact fun heq => hsame (Option.some.inj heq)

/-! ## After a sequence of paintings -/

theorem paintAll_cons (themes : Dict Theme) (first : PaintKey) (keys : List PaintKey) :
    blank.paintAll themes (first :: keys) = blank.paint themes (keys.getLastD first) := by
  induction keys generalizing first with
  | nil => rfl
  | cons key keys ih =>
    have hwiped : blank.paintAll themes (first :: key :: keys) =
        blank.paintAll themes (key :: keys) :=
      congrArg (paintAll themes · keys) (paint_paint themes first key)
    rw [hwiped, ih, List.getLastD_cons]

theorem lastKey_paintAll (themes : Dict Theme) (keys : List PaintKey) :
    (blank.paintAll themes keys).painter.lastKey = keys.getLast? := by
  cases keys with
  | nil => rfl
  | cons first keys => rw [paintAll_cons, lastKey_paint, List.getLast?_cons, List.getLastD_eq_getLast?]

/-- After any sequence of paintings, whatever the themes and whether they are known, the canvas is as
the last one alone leaves it on an empty style: the same properties, and the same background. A
painting makes as many changes as it counts. It counts none exactly when the theme, the forced
background and the mode are those of the painting before it. -/
theorem painted_anew (themes : Dict Theme) (keys : List PaintKey) (key : PaintKey) :
    let before := blank.paintAll themes keys
    let after := blank.paintAll themes (keys ++ [key])
    let once := blank.paint themes key
    let painted := before.painter.paint themes key
    after = once ∧ painted.2.2 = painted.2.1.length ∧
      (painted.2.2 = 0 ↔ keys.getLast? = some key) := by
  intro before after once painted
  have hafter : after = once := by
    cases keys with
    | nil => rfl
    | cons first keys =>
      show blank.paintAll themes (first :: (keys ++ [key])) = once
      rw [paintAll_cons, List.getLastD_concat]
  refine ⟨hafter, Painter.count_paint .., ?_⟩
  rw [Painter.count_paint_eq_zero_iff, lastKey_paintAll]

end Canvas

end HubCard

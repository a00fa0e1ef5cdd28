/-!
Dictionaries: pairs of a text and a value, kept in strictly increasing order of their keys. Texts
are ordered by code point, which is also the order of their UTF-8 bytes.
-/

namespace HubCard

abbrev Dict (α : Type) := List (String × α)

namespace Dict

variable {α : Type}

def empty : Dict α := []

def get? : Dict α → String → Option α
  | [], _ => none
  | (k, v) :: rest, key => if k = key then some v else get? rest key

/-- Puts `value` under `key`, in place of the value that was there. -/
def insert : Dict α → String → α → Dict α
  | [], key, value => [(key, value)]
  | (k, v) :: rest, key, value =>
    if key < k then (key, value) :: (k, v) :: rest
    else if k = key then (key, value) :: rest
    else (k, v) :: insert rest key value

def erase (d : Dict α) (key : String) : Dict α :=
  d.filter (·.1 ≠ key)

/-- The dictionary of a list of pairs; of two values for a key the later one stays. -/
def ofList (pairs : List (String × α)) : Dict α :=
  pairs.foldl (fun d (key, value) => insert d key value) empty

def keys (d : Dict α) : List String :=
  d.map Prod.fst

@[simp] theorem get?_empty (key : String) : get? (empty : Dict α) key = none := rfl

theorem get?_insert_self (d : Dict α) (key : String) (value : α) :
    (d.insert key value).get? key = some value := by
  induction d with
  | nil => simp [insert, get?]
  | cons head rest ih =>
    obtain ⟨k, v⟩ := head
    simp only [insert]
    split
    · simp [get?]
    · split
      · simp [get?]
      · rename_i h
        simp [get?, h, ih]

theorem get?_insert_of_ne (d : Dict α) {key other : String} (value : α) (h : other ≠ key) :
    (d.insert key value).get? other = d.get? other := by
  induction d with
  | nil => simp [insert, get?, Ne.symm h]
  | cons head rest ih =>
    obtain ⟨k, v⟩ := head
    simp only [insert]
    split
    · simp [get?, Ne.symm h]
    · split
      · rename_i hk
        subst hk
        simp [get?, Ne.symm h]
      · simp only [get?, ih]

theorem get?_insert (d : Dict α) (key other : String) (value : α) :
    (d.insert key value).get? other = if other = key then some value else d.get? other := by
  split
  · rename_i h
    rw [h, get?_insert_self]
  · rename_i h
    exact get?_insert_of_ne d value h

theorem get?_erase (d : Dict α) (key other : String) :
    (d.erase key).get? other = if other = key then none else d.get? other := by
  induction d with
  | nil => simp [erase, get?]
  | cons head rest ih =>
    obtain ⟨k, v⟩ := head
    have ih : get? (rest.filter (·.1 ≠ key)) other = _ := ih
    by_cases hk : k = key <;> by_cases ho : other = key <;> simp_all [erase, get?]
    intro h
    exact absurd h.symm ho

/-! ## Order -/

/-- The keys are in strictly increasing order. -/
def Ordered (d : Dict α) : Prop :=
  d.Pairwise (·.1 < ·.1)

theorem ordered_empty : (empty : Dict α).Ordered :=
  .nil

theorem mem_insert {d : Dict α} {key : String} {value : α} {entry : String × α}
    (h : entry ∈ d.insert key value) : entry = (key, value) ∨ entry ∈ d := by
  induction d with
  | nil => simpa [insert] using h
  | cons head rest ih =>
    simp only [insert] at h
    split at h
    · simpa using h
    · split at h
      · rcases List.mem_cons.mp h with h | h
        · exact .inl h
        · exact .inr (List.mem_cons_of_mem _ h)
      · rcases List.mem_cons.mp h with h | h
        · exact .inr (h ▸ List.mem_cons_self)
        · exact (ih h).imp_right (List.mem_cons_of_mem _)

theorem Ordered.insert {d : Dict α} (h : d.Ordered) (key : String) (value : α) :
    (d.insert key value).Ordered := by
  induction d with
  | nil => exact List.pairwise_singleton _ _
  | cons head rest ih =>
    obtain ⟨k, v⟩ := head
    obtain ⟨hhead, hrest⟩ := List.pairwise_cons.mp h
    simp only [Dict.insert]
    split
    · rename_i hlt
      apply List.pairwise_cons.mpr ⟨?_, h⟩
      intro entry hentry
      rcases List.mem_cons.mp hentry with rfl | hentry
      · exact hlt
      · exact String.lt_trans hlt (hhead entry hentry)
    · rename_i hnot
      split
      · rename_i heq
        subst heq
        exact List.pairwise_cons.mpr ⟨hhead, hrest⟩
      · rename_i hne
        apply List.pairwise_cons.mpr ⟨?_, ih hrest⟩
        intro entry hentry
        rcases mem_insert hentry with rfl | hentry
        · -- neither above nor equal, so below
          show k < key
          apply Classical.byContradiction
          intro hge
          exact hne (String.le_antisymm (String.not_lt.mp hnot) (String.not_lt.mp hge))
        · exact hhead entry hentry

theorem Ordered.erase {d : Dict α} (h : d.Ordered) (key : String) : (d.erase key).Ordered :=
  List.Pairwise.filter _ h

theorem get?_eq_none_of_below {d : Dict α} {key : String} (h : ∀ entry ∈ d, key < entry.1) :
    d.get? key = none := by
  induction d with
  | nil => rfl
  | cons head rest ih =>
    have hlt : key < head.1 := h head List.mem_cons_self
    have hne : head.1 ≠ key := fun heq => String.lt_irrefl key (heq ▸ hlt)
    rw [get?, if_neg hne]
    exact ih fun entry hentry => h entry (List.mem_cons_of_mem _ hentry)

-- What is below the first key is not there.
theorem Ordered.get?_eq_none {k : String} {v : α} {rest : Dict α} (h : Ordered ((k, v) :: rest))
    {key : String} (hkey : key < k) : get? ((k, v) :: rest) key = none := by
  apply get?_eq_none_of_below
  intro entry hentry
  rcases List.mem_cons.mp hentry with rfl | hentry
  · exact hkey
  · exact String.lt_trans hkey ((List.pairwise_cons.mp h).1 entry hentry)

/-- Dictionaries in order are told apart by what is found in them. -/
theorem ext_of_get? {d d' : Dict α} (h : d.Ordered) (h' : d'.Ordered)
    (hget : ∀ key, d.get? key = d'.get? key) : d = d' := by
  induction d generalizing d' with
  | nil =>
    cases d' with
    | nil => rfl
    | cons head' rest' =>
      have hfirst := hget head'.1
      simp [get?] at hfirst
  | cons head rest ih =>
    obtain ⟨k, v⟩ := head
    cases d' with
    | nil =>
      have hfirst := hget k
      simp [get?] at hfirst
    | cons head' rest' =>
      obtain ⟨k', v'⟩ := head'
      have hfound : get? ((k, v) :: rest) k = some v := by simp [get?]
      have hfound' : get? ((k', v') :: rest') k' = some v' := by simp [get?]
      have hnot : ¬ k < k' := by
        intro hlt
        rw [hget, h'.get?_eq_none hlt] at hfound
        cases hfound
      have hnot' : ¬ k' < k := by
        intro hlt
        rw [← hget, h.get?_eq_none hlt] at hfound'
        cases hfound'
      have hkey : k = k' := String.le_antisymm (String.not_lt.mp hnot') (String.not_lt.mp hnot)
      subst hkey
      have hvalue : v = v' := by
        rw [hget, hfound', Option.some.injEq] at hfound
        exact hfound.symm
      obtain ⟨habove, hrest⟩ := List.pairwise_cons.mp h
      obtain ⟨habove', hrest'⟩ := List.pairwise_cons.mp h'
      have htail : rest = rest' := by
        apply ih hrest hrest'
        intro key
        by_cases hk : k = key
        · subst hk
          rw [get?_eq_none_of_below habove, get?_eq_none_of_below habove']
        · have hother := hget key
          simpa only [get?, if_neg hk] using hother
      rw [hvalue, htail]

theorem Ordered.get?_eq_some_iff {d : Dict α} (h : d.Ordered) {key : String} {value : α} :
    d.get? key = some value ↔ (key, value) ∈ d := by
  induction d with
  | nil => simp [get?]
  | cons head rest ih =>
    obtain ⟨k, v⟩ := head
    obtain ⟨hhead, hrest⟩ := List.pairwise_cons.mp h
    rw [List.mem_cons, Prod.mk.injEq, get?]
    split
    · rename_i hkey
      subst hkey
      have hgone : (k, value) ∉ rest := fun hmem => String.lt_irrefl k (hhead _ hmem)
      rw [Option.some.injEq]
      exact ⟨fun hvalue => .inl ⟨rfl, hvalue.symm⟩,
        fun hmem => (hmem.resolve_right hgone).2.symm⟩
    · rename_i hne
      rw [ih hrest]
      exact ⟨.inr, fun hmem => hmem.resolve_left fun hsame => hne hsame.1.symm⟩

/-! ## From pairs -/

theorem ordered_ofList (pairs : List (String × α)) : (ofList pairs).Ordered := by
  have hfold : ∀ d : Dict α, d.Ordered →
      Ordered (pairs.foldl (fun d (key, value) => insert d key value) d) := by
    induction pairs with
    | nil => exact fun d hd => hd
    | cons pair pairs ih => exact fun d hd => ih _ (hd.insert pair.1 pair.2)
  exact hfold empty ordered_empty

-- Of two values for a key the later one is found.
theorem get?_ofList_append (pairs more : List (String × α)) (key : String) :
    (ofList (pairs ++ more)).get? key = ((ofList more).get? key).or ((ofList pairs).get? key) := by
  have hfold : ∀ d : Dict α, get? (more.foldl (fun d (key, value) => insert d key value) d) key =
      ((ofList more).get? key).or (d.get? key) := by
    induction more with
    | nil => exact fun d => rfl
    | cons pair more ih =>
      intro d
      rw [ofList, List.foldl_cons, List.foldl_cons, ih, ih (empty.insert pair.1 pair.2),
        get?_insert, get?_insert]
      split
      · rw [Option.or_assoc, Option.some_or]
      · rw [get?_empty, Option.or_none]
  rw [ofList, List.foldl_append]
  exact hfold (ofList pairs)

/-! ## Keys -/

theorem mem_keys_insert (d : Dict α) (key other : String) (value : α) :
    other ∈ (d.insert key value).keys ↔ other = key ∨ other ∈ d.keys := by
  induction d with
  | nil => simp [insert, keys]
  | cons head rest ih =>
    simp only [keys] at ih ⊢
    simp only [insert]
    split
    · simp
    · split
      · rename_i heq
        simp [heq]
      · simp only [List.map_cons, List.mem_cons, ih]
        exact or_left_comm

theorem mem_keys_ofList (pairs : List (String × α)) (key : String) :
    key ∈ (ofList pairs).keys ↔ key ∈ pairs.map Prod.fst := by
  have hfold : ∀ d : Dict α,
      key ∈ (pairs.foldl (fun d (key, value) => insert d key value) d).keys ↔
        key ∈ d.keys ∨ key ∈ pairs.map Prod.fst := by
    induction pairs with
    | nil => simp
    | cons pair pairs ih =>
      intro d
      rw [List.foldl_cons, ih, mem_keys_insert, List.map_cons, List.mem_cons, or_assoc]
      exact or_left_comm
  rw [ofList, hfold]
  simp [keys, empty]

end Dict

end HubCard

/-!
Blank characters (the Unicode property White_Space), trimming by them, and comparison of texts
that ignores the case of ASCII letters.
-/

namespace HubCard.Text

/-- The code points with the property White_Space, in order, as inclusive ranges. -/
def blankRanges : List (Nat × Nat) :=
  [(0x9, 0xD), (0x20, 0x20), (0x85, 0x85), (0xA0, 0xA0), (0x1680, 0x1680), (0x2000, 0x200A),
    (0x2028, 0x2029), (0x202F, 0x202F), (0x205F, 0x205F), (0x3000, 0x3000)]

def isBlank (c : Char) : Bool :=
  blankRanges.any fun (low, high) => low ≤ c.toNat && c.toNat ≤ high

def trimStart (s : List Char) : List Char :=
  s.dropWhile isBlank

def trimEnd (s : List Char) : List Char :=
  (trimStart s.reverse).reverse

def trim (s : String) : String :=
  String.ofList (trimEnd (trimStart s.toList))

/-- Nothing but blank characters, or nothing at all. -/
def isBlankText (s : String) : Bool :=
  s.toList.all isBlank

/-- ASCII letters in lower case; every other character stays. -/
def lower (s : String) : String :=
  s.map Char.toLower

def sameIgnoringCase (s t : String) : Bool :=
  lower s == lower t

/-- Whether `part` stands somewhere in the text. -/
def occurs (part : List Char) : List Char → Bool
  | [] => part.isEmpty
  | c :: rest => part.isPrefixOf (c :: rest) || occurs part rest

theorem trimStart_cons_of_blank {c : Char} (h : isBlank c = true) (s : List Char) :
    trimStart (c :: s) = trimStart s :=
  List.dropWhile_cons_of_pos h

theorem trimStart_cons_of_not_blank {c : Char} (h : isBlank c = false) (s : List Char) :
    trimStart (c :: s) = c :: s := by
  simp [trimStart, h]

theorem trimStart_trimStart (s : List Char) : trimStart (trimStart s) = trimStart s := by
  induction s with
  | nil => rfl
  | cons c s ih =>
    cases hc : isBlank c with
    | true => rw [trimStart_cons_of_blank hc, ih]
    | false => rw [trimStart_cons_of_not_blank hc, trimStart_cons_of_not_blank hc]

-- Trimming the end leaves the front as it is.
theorem trimStart_trimEnd {s : List Char} (h : trimStart s = s) :
    trimStart (trimEnd s) = trimEnd s := by
  have hfront : trimEnd s <+: s := by
    rw [← List.reverse_suffix, trimEnd, List.reverse_reverse]
    exact List.dropWhile_suffix isBlank
  cases hleft : trimEnd s with
  | nil => rfl
  | cons c rest =>
    rw [hleft] at hfront
    rcases hfront with ⟨blanks, rfl⟩
    cases hc : isBlank c with
    | false => exact trimStart_cons_of_not_blank hc rest
    | true =>
      -- the text would begin with a blank that trimming has left there
      have hshort := (List.dropWhile_suffix (l := rest ++ blanks) isBlank).length_le
      rw [List.cons_append, trimStart_cons_of_blank hc] at h
      rw [← trimStart, h, List.length_cons] at hshort
      omega

theorem trim_trim (s : String) : trim (trim s) = trim s := by
  simp only [trim, String.toList_ofList, trimStart_trimEnd (trimStart_trimStart s.toList)]
  rw [trimEnd, trimEnd, List.reverse_reverse, trimStart_trimStart]

/-! ## Texts without blanks around them -/

theorem trimStart_eq_self_iff {s : List Char} :
    trimStart s = s ↔ ∀ c, s.head? = some c → isBlank c = false := by
  cases s with
  | nil => simp [trimStart]
  | cons c s =>
    simp only [List.head?_cons, Option.some.injEq, forall_eq']
    cases hc : isBlank c with
    | false => simp [trimStart_cons_of_not_blank hc]
    | true =>
      -- the first character is gone, and with it the length
      simp only [trimStart_cons_of_blank hc, Bool.true_eq_false, iff_false]
      intro hself
      have hshort := (List.dropWhile_suffix (l := s) isBlank).length_le
      rw [← trimStart, hself, List.length_cons] at hshort
      omega

theorem trim_eq_self_iff {s : String} :
    trim s = s ↔
      ∀ c, s.toList.head? = some c ∨ s.toList.getLast? = some c → isBlank c = false := by
  have hparts : trim s = s ↔ trimStart s.toList = s.toList ∧ trimEnd s.toList = s.toList := by
    rw [trim, ← String.toList_inj, String.toList_ofList]
    constructor
    · intro hself
      have hstart : trimStart s.toList = s.toList := by
        rw [← hself, trimStart_trimEnd (trimStart_trimStart s.toList)]
      rw [hstart] at hself
      exact ⟨hstart, hself⟩
    · rintro ⟨hstart, hend⟩
      rw [hstart, hend]
  have hlast : trimEnd s.toList = s.toList ↔ trimStart s.toList.reverse = s.toList.reverse := by
    rw [trimEnd, List.reverse_eq_iff]
  rw [hparts, hlast, trimStart_eq_self_iff, trimStart_eq_self_iff, List.head?_reverse]
  exact ⟨fun h c hc => hc.elim (h.1 c) (h.2 c), fun h => ⟨fun c hc => h c (.inl hc),
    fun c hc => h c (.inr hc)⟩⟩

end HubCard.Text

import HubCard.Json.Decoder
import Mathlib.Data.List.TakeDrop

/-!
Whole numbers read back. The decimal text of a number of 64 bits is that number again where it is
read, whatever comes after it that is no part of a number.
-/

namespace HubCard.Json

theorem exists_toDigits (n : Nat) :
    ∃ c digits, c.isDigit = true ∧ Nat.toDigits 10 n = c :: digits := by
  rcases List.exists_cons_of_length_pos (Nat.length_toDigits_pos (b := 10) (n := n)) with
    ⟨c, digits, hdigits⟩
  refine ⟨c, digits, ?_, hdigits⟩
  apply Nat.isDigit_of_mem_toDigits (b := 10) (n := n) (by decide) (by decide)
  rw [hdigits]
  exact List.mem_cons_self

-- Only zero is written with a leading zero.
theorem toDigits_ne_zero_cons {n : Nat} (h : n ≠ 0) (digits : List Char) :
    Nat.toDigits 10 n ≠ '0' :: digits := by
  induction n using Nat.strongRecOn generalizing digits with
  | ind n ih =>
    intro hzero
    by_cases hsmall : n < 10
    · have hdigit : ∀ n < 10, n ≠ 0 → n.digitChar ≠ '0' := by decide
      rw [Nat.toDigits_of_lt_base hsmall, List.cons.injEq] at hzero
      exact hdigit n hsmall h hzero.1
    · rcases exists_toDigits (n / 10) with ⟨c, front, -, hfront⟩
      rw [Nat.toDigits_of_base_le (by decide) (by omega), hfront, List.cons_append,
        List.cons.injEq] at hzero
      rw [hzero.1] at hfront
      exact ih (n / 10) (by omega) (by omega) front hfront

theorem le_ofDigitChars (digits : List Char) (value : Nat) :
    value ≤ Nat.ofDigitChars 10 digits value := by
  induction digits generalizing value with
  | nil => exact Nat.le_refl value
  | cons c digits ih =>
    rw [Nat.ofDigitChars_cons]
    exact Nat.le_trans (by omega) (ih _)

theorem gather_eq {value : Nat} {digits : List Char}
    (h : Nat.ofDigitChars 10 digits value ≤ maxWord) :
    gather value digits = (Nat.ofDigitChars 10 digits value, []) := by
  induction digits generalizing value with
  | nil => rfl
  | cons c digits ih =>
    rw [Nat.ofDigitChars_cons] at h ⊢
    have hnext : 10 * value + (c.toNat - 48) ≤ maxWord := Nat.le_trans (le_ofDigitChars digits _) h
    rw [gather, if_pos hnext]
    exact ih h

/-- Text with which no number goes on that ends before it. -/
def EndsNumber (s : List Char) : Prop :=
  ∀ c, s.head? = some c → c.isDigit = false ∧ c ≠ '.' ∧ c ≠ 'e' ∧ c ≠ 'E'

section Printed

variable {n : Nat} {tail : List Char} (htail : EndsNumber tail)

include htail

theorem span_toDigits :
    (Nat.toDigits 10 n ++ tail).span Char.isDigit = (Nat.toDigits 10 n, tail) := by
  have hdigits : ∀ c ∈ Nat.toDigits 10 n, c.isDigit = true :=
    fun c hc => Nat.isDigit_of_mem_toDigits (by decide) (by decide) hc
  have hstop : tail.takeWhile Char.isDigit = [] ∧ tail.dropWhile Char.isDigit = tail := by
    cases tail with
    | nil => exact ⟨rfl, rfl⟩
    | cons c tail => simp [(htail c rfl).1]
  rw [List.span_eq_takeWhile_dropWhile, List.takeWhile_append_of_pos hdigits,
    List.dropWhile_append_of_pos hdigits, hstop.1, hstop.2, List.append_nil]

theorem wholeDigits_toDigits (atEnd : Fault) :
    wholeDigits atEnd (Nat.toDigits 10 n ++ tail) = .ok (Nat.toDigits 10 n, tail) := by
  by_cases hn : n = 0
  · rw [hn, Nat.toDigits_zero]
    cases tail with
    | nil => rfl
    | cons c tail =>
      have hc : c.isDigit = false := (htail c rfl).1
      simp [wholeDigits, hc]
  · have hspan := span_toDigits (n := n) htail
    have hzero := toDigits_ne_zero_cons hn
    rcases exists_toDigits n with ⟨c, digits, -, hdigits⟩
    rw [hdigits] at hspan hzero ⊢
    have hc : c ≠ '0' := fun he => hzero digits (by rw [he])
    unfold wholeDigits someDigits
    split
    · rename_i heq
      exact absurd (List.cons.inj heq).1 hc
    · rw [hspan]

theorem literal_toDigits (atEnd : Fault) :
    literal atEnd (Nat.toDigits 10 n ++ tail) =
      .ok (⟨false, Nat.toDigits 10 n, [], none⟩, tail) := by
  have hwhole := wholeDigits_toDigits (n := n) htail atEnd
  have hfraction : fractionDigits atEnd tail = .ok ([], tail) := by
    cases tail with
    | nil => rfl
    | cons c tail =>
      have hc : c ≠ '.' := (htail c rfl).2.1
      unfold fractionDigits
      split
      · rename_i heq
        exact absurd (List.cons.inj heq).1 hc
      · rfl
  have hexponent : exponentPart atEnd tail = .ok (none, tail) := by
    cases tail with
    | nil => rfl
    | cons c tail =>
      have hc : ¬ (c = 'e' ∨ c = 'E') := not_or.mpr (htail c rfl).2.2
      rw [exponentPart, if_neg hc]
  have hsign : ∀ rest, Nat.toDigits 10 n ++ tail ≠ '-' :: rest := by
    intro rest heq
    rcases exists_toDigits n with ⟨c, digits, hdigit, hdigits⟩
    rw [hdigits, List.cons_append, List.cons.injEq] at heq
    rw [heq.1] at hdigit
    exact absurd hdigit (by decide)
  unfold literal
  split
  rename_i negative rest hsplit
  split at hsplit
  · rename_i heq
    exact absurd heq (hsign _)
  · rcases Prod.mk.inj hsplit with ⟨rfl, rfl⟩
    simp only [hwhole, hfraction, hexponent, bind, Except.bind]

/-- A number that is printed reads back. -/
theorem number_toDigits (hle : n ≤ maxWord) :
    number (Nat.toDigits 10 n ++ tail) = .ok (.int n, tail) := by
  have hvalue : Nat.ofDigitChars 10 (Nat.toDigits 10 n) 0 = n :=
    Nat.ofDigitChars_toDigits (by decide) (by decide)
  have hgather : gather 0 (Nat.toDigits 10 n) = (n, []) := by
    rw [gather_eq (by rw [hvalue]; exact hle), hvalue]
  have hint : (⟨false, Nat.toDigits 10 n, [], none⟩ : Literal).int? = some (n : Int) := by
    simp only [Literal.int?, hgather]
    rfl
  unfold number
  rw [literal_toDigits htail]
  simp only [bind, Except.bind, hint]

end Printed

theorem head_of_isDigit {c : Char} (hc : c.isDigit = true) (s : List Char) :
    head (c :: s) = number (c :: s) := by
  have hne : ∀ d : Char, d.isDigit = false → c ≠ d := by
    rintro d hd rfl
    rw [hd] at hc
    cases hc
  have hskip : skipSpace (c :: s) = c :: s := by
    have hspace : isSpace c = false := by
      simp [isSpace, hne ' ' rfl, hne '\n' rfl, hne '\t' rfl, hne '\r' rfl]
    rw [skipSpace, List.dropWhile_cons, hspace]
    rfl
  have hother : ∀ (d : Char) (rest : List Char), d.isDigit = false → c :: s ≠ d :: rest :=
    fun d rest hd heq => hne d hd (List.cons.inj heq).1
  unfold head
  rw [hskip]
  split
  · rename_i heq
    cases heq
  · rename_i heq
    exact absurd heq (hother 'n' _ rfl)
  · rename_i heq
    exact absurd heq (hother 't' _ rfl)
  · rename_i heq
    exact absurd heq (hother 'f' _ rfl)
  · rename_i heq
    exact absurd heq (hother '"' _ rfl)
  · rename_i heq
    exact absurd heq (hother '[' _ rfl)
  · rename_i heq
    exact absurd heq (hother '\x7b' _ rfl)
  · rename_i heq
    rcases List.cons.inj heq with ⟨rfl, rfl⟩
    rw [if_pos (.inr hc)]

theorem head_toDigits {n : Nat} (hle : n ≤ maxWord) {tail : List Char} (htail : EndsNumber tail) :
    head (Nat.toDigits 10 n ++ tail) = .ok (.int n, tail) := by
  rw [← number_toDigits htail hle]
  rcases exists_toDigits n with ⟨c, digits, hdigit, hdigits⟩
  rw [hdigits, List.cons_append]
  exact head_of_isDigit hdigit _

theorem head_space (s : List Char) : head (' ' :: s) = head s := by
  have hskip : skipSpace (' ' :: s) = skipSpace s := rfl
  unfold head
  rw [hskip]

theorem read_natural {α : Type} {bound n : Nat} {s rest : List Char}
    (hhead : head s = .ok (.int n, rest)) (hlt : n < bound) (wanted : String) (ofNat : Nat → α)
    (depth : Nat) : (Decoder.natural bound wanted ofNat).read depth s = .ok (ofNat n, rest) := by
  have hn : (0 : Int) ≤ n ∧ (n : Int) < bound := by omega
  simp only [Decoder.natural, Decoder.scalar, hhead, bind, Except.bind, if_pos hn,
    Int.toNat_natCast]

/-- A word that is printed reads back. -/
theorem read_word64 (n : UInt64) {tail : List Char} (htail : EndsNumber tail) (depth : Nat) :
    Decoder.word64.read depth (Nat.toDigits 10 n.toNat ++ tail) = .ok (n, tail) := by
  have hle : n.toNat ≤ maxWord := by
    have hlt := n.toNat_lt
    unfold maxWord
    rw [UInt64.size]
    omega
  have hread := read_natural (head_toDigits hle htail) n.toNat_lt "u64" UInt64.ofNat depth
  rw [UInt64.ofNat_toNat] at hread
  exact hread

theorem read_word64_space (depth : Nat) (s : List Char) :
    Decoder.word64.read depth (' ' :: s) = Decoder.word64.read depth s := by
  simp only [Decoder.word64, Decoder.natural, Decoder.scalar, head_space]

end HubCard.Json

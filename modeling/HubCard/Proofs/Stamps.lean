import HubCard.Proofs.Numbers
import HubCard.Script

/-!
The time that a line of output says. A line for a view begins with the time that the renderer was set
to, and there it can be read back, so what is said of the times of some output is said of its text.
-/

namespace HubCard

theorem Numeral.intText_natCast (n : Nat) : intText n = natText n := by
  have hnot : ¬ (n : Int) < 0 := by omega
  rw [intText, if_neg hnot, Int.natAbs_natCast]
  rfl

/-- A line for a view, to the letter. -/
theorem Renderer.line_eq (r : Renderer) (v : View) :
    r.line v =
      "\x7b\"at\":" ++ Numeral.natText r.time.toNat ++ ",\"render\":" ++ v.toJson.render ++
        "\x7d" := by
  have hat : Json.stringText "at" = "\"at\"" := by decide
  have hrender : Json.stringText "render" = "\"render\"" := by decide
  simp only [line, Json.render, Json.renderMembers, Json.renderMember, hat, hrender,
    Numeral.intText_natCast]
  simp only [String.append_assoc]
  rfl

namespace Script

/-- The time that a line begins with, read as JSON is read. -/
def at? (line : String) : Option Millis := do
  let (.object, s) ← (Json.head line.toList).toOption | none
  let (some "at", s) ← (Json.nextKey true s).toOption | none
  let s ← (Json.colon s).toOption
  let (time, _) ← (Json.Decoder.word64.read Json.maxDepth s).toOption
  return time

theorem at?_line (r : Renderer) (v : View) : at? (r.line v) = some r.time := by
  have hline : ∃ rest, (r.line v).toList =
      '\x7b' :: '"' :: 'a' :: 't' :: '"' :: ':' :: (Nat.toDigits 10 r.time.toNat ++ ',' :: rest) := by
    rw [Renderer.line_eq]
    exact ⟨_, by simp [Numeral.natText]; rfl⟩
  rcases hline with ⟨rest, hline⟩
  have hopen : ∀ s, Json.head ('\x7b' :: s) = .ok (.object, s) := fun _ => rfl
  have hkey : ∀ s, Json.nextKey true ('"' :: 'a' :: 't' :: '"' :: s) = .ok (some "at", s) :=
    fun _ => rfl
  have hcolon : ∀ s, Json.colon (':' :: s) = .ok s := fun _ => rfl
  have hcomma : Json.EndsNumber (',' :: rest) := by
    rintro c ⟨rfl⟩
    decide
  have htime := Json.read_word64 r.time hcomma Json.maxDepth
  rw [at?, hline, hopen]
  simp only [Except.toOption, bind, Option.bind, hkey, hcolon, htime, pure]

def Output.line? : Output → Option String
  | .line text => some text
  | .log _ => none

/-- The lines among some output. -/
def printed (outputs : List Output) : List String :=
  outputs.filterMap Output.line?

@[simp] theorem printed_append (outputs more : List Output) :
    printed (outputs ++ more) = printed outputs ++ printed more :=
  List.filterMap_append

theorem printed_logOf (acts : List Act) : printed (Replay.logOf acts) = [] := by
  simp [printed, Replay.logOf, Output.line?]

/-- Output whose lines each say a time, in order, none of them before one time nor after another. -/
def Stamped (first last : Millis) (outputs : List Output) : Prop :=
  ∃ times : List Millis, (printed outputs).map at? = times.map some ∧
    times.Pairwise (· ≤ ·) ∧ ∀ t ∈ times, first ≤ t ∧ t ≤ last

theorem stamped_of_none {outputs : List Output} (h : printed outputs = []) (first last : Millis) :
    Stamped first last outputs := by
  refine ⟨[], ?_, .nil, fun _ ht => by cases ht⟩
  rw [h]
  rfl

-- The log says nothing of times.
theorem Stamped.log_append {first last : Millis} {outputs : List Output}
    (h : Stamped first last outputs) (acts : List Act) :
    Stamped first last (Replay.logOf acts ++ outputs) := by
  rw [Stamped, printed_append, printed_logOf, List.nil_append]
  exact h

-- Output one after the other, up to a time and from the time on.
theorem Stamped.append {first time last : Millis} {outputs more : List Output}
    (h : Stamped first time outputs) (hmore : Stamped time last more) (hfirst : first ≤ time)
    (hlast : time ≤ last) : Stamped first last (outputs ++ more) := by
  obtain ⟨times, hat, horder, hwithin⟩ := h
  obtain ⟨later, hlater, hlaterOrder, hlaterWithin⟩ := hmore
  refine ⟨times ++ later, ?_, ?_, ?_⟩
  · rw [printed_append, List.map_append, List.map_append, hat, hlater]
  · rw [List.pairwise_append]
    refine ⟨horder, hlaterOrder, ?_⟩
    intro t ht u hu
    exact UInt64.le_trans (hwithin t ht).2 (hlaterWithin u hu).1
  · intro t ht
    rcases List.mem_append.mp ht with ht | ht
    · exact ⟨(hwithin t ht).1, UInt64.le_trans (hwithin t ht).2 hlast⟩
    · exact ⟨UInt64.le_trans hfirst (hlaterWithin t ht).1, (hlaterWithin t ht).2⟩

theorem Stamped.mono {first time last : Millis} {outputs : List Output}
    (h : Stamped time last outputs) (hfirst : first ≤ time) : Stamped first last outputs := by
  obtain ⟨times, hat, horder, hwithin⟩ := h
  exact ⟨times, hat, horder, fun t ht =>
    ⟨UInt64.le_trans hfirst (hwithin t ht).1, (hwithin t ht).2⟩⟩

theorem stamped_line (r : Renderer) (v : View) : Stamped r.time r.time [.line (r.line v)] := by
  refine ⟨[r.time], ?_, List.pairwise_singleton .., ?_⟩
  · exact congrArg (fun t => [t]) (at?_line r v)
  · intro t ht
    rw [List.mem_singleton.mp ht]
    exact ⟨UInt64.le_refl _, UInt64.le_refl _⟩

theorem stamped_lineOf (r : Renderer) (view : Option View) :
    Stamped r.time r.time (Replay.lineOf r view) := by
  cases view with
  | none => exact stamped_of_none rfl r.time r.time
  | some v => exact stamped_line r v

end Script

end HubCard

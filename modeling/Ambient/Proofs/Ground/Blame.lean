import Ambient.Proofs.Ground.Statement
import Ambient.Proofs.Lexeme.Scans

namespace Ambient

/-- A failure is placed where a token of the text starts. If that is malformed it is what the failure
is about. -/
structure Failure.Blames (text : String) (f : Failure) : Prop where
  placed : ∃ t ∈ lexemes text, t.start = f.position
  lexical : ∀ t ∈ lexemes text, t.start = f.position → ∀ m, t.error = some m →
    f.message = m ∧ f.arguments = []

/-- A place in a text before which no token is malformed. -/
def Stream.Clean (text : String) (s : Stream) : Prop :=
  ∃ before, lexemes text = before ++ s.toList ∧ ∀ t ∈ before, t.error = none

namespace Stream.Clean

variable {text : String} {s t : Stream}

theorem start (text : String) : (Stream.ofText text).Clean text := by
  refine ⟨[], ?_, fun _ mem => absurd mem List.not_mem_nil⟩
  rw [toList_ofText, List.nil_append]

theorem scanned (h : s.Clean text) : Scanned s.toList := by
  obtain ⟨before, eq, -⟩ := h
  exact (eq ▸ scanned_lexemes text).of_append (List.cons_ne_nil _ _)

theorem isChain (h : s.Clean text) : s.toList.IsChain Lexeme.Before := by
  obtain ⟨before, eq, -⟩ := h
  exact (eq ▸ isChain_lexemes text).right_of_append

theorem mem {u : Lexeme} (h : s.Clean text) (mem : u ∈ s.toList) : u ∈ lexemes text := by
  obtain ⟨before, eq, -⟩ := h
  exact eq ▸ List.mem_append_right before mem

/-- A malformed token of the text is still to come. -/
theorem ahead {u : Lexeme} (h : s.Clean text) (mem : u ∈ lexemes text) (malformed : u.error ≠ none) :
    u ∈ s.toList := by
  obtain ⟨before, eq, clean⟩ := h
  rw [eq] at mem
  exact (List.mem_append.mp mem).resolve_left fun read => malformed (clean u read)

theorem next (h : s.Clean text) (sound : s.current.error = none) : s.next.Clean text := by
  obtain ⟨before, eq, clean⟩ := h
  rcases s with ⟨first, _ | ⟨second, others⟩⟩
  · exact ⟨before, eq, clean⟩
  · refine ⟨before ++ [first], by simpa [toList, Stream.next] using eq, ?_⟩
    exact List.forall_mem_append.mpr ⟨clean, List.forall_mem_singleton.mpr sound⟩

/-- What was read from a place on is well formed. -/
theorem sound_of_nearer (h : s.Clean text) (h' : t.Clean text) (nearer : t.Nearer s) :
    s.current.error = none := by
  obtain ⟨before, eq, -⟩ := h
  obtain ⟨before', eq', clean⟩ := h'
  obtain ⟨_ | ⟨first, read⟩, split⟩ := nearer.suffix
  · have lengths := congrArg List.length split
    have fewer := nearer.fewer
    simp only [List.nil_append, toList, List.length_cons] at lengths
    omega
  · rw [← split, ← List.append_assoc] at eq
    obtain rfl := List.append_cancel_right (eq'.symm.trans eq)
    obtain rfl : first = s.current := (List.cons.inj split).1
    exact clean _ (by simp)

/-- At a place only the token there starts that is malformed, if any. -/
theorem eq_current {u : Lexeme} (h : s.Clean text) (mem : u ∈ s.toList)
    (start : u.start = s.current.start) (malformed : u.error ≠ none) : u = s.current := by
  rcases List.mem_cons.mp mem with rfl | mem
  · rfl
  obtain ⟨first, _ | ⟨second, others⟩⟩ := s
  · cases mem
  obtain ⟨before, chain⟩ := List.isChain_cons_cons.mp h.isChain
  -- the starts of the tokens rise, so that the second one starts here, too
  have rising : second.start ≤ u.start := by
    let rises (t u : Lexeme) : Prop := t.start ≤ u.start
    have : Trans rises rises rises := ⟨Nat.le_trans⟩
    rcases List.mem_cons.mp mem with rfl | mem
    · exact Nat.le_refl _
    · have rising : (second :: others).IsChain rises := chain.imp fun _ _ => Lexeme.Before.start_le
      exact rising.rel_cons mem
  have le := before.start_le
  have none := before.start_eq_iff.mp (show first.start = second.start by
    have : u.start = first.start := start
    omega)
  -- so it takes up no text and is the end of the text, which is well formed
  have scanned : Scanned (second :: others) := h.scanned.tail (List.cons_ne_nil _ _)
  have last := before.last none
  have ends := scanned.ahead_eq_nil last
  obtain rfl : u = second := by simpa [ends] using mem
  exact absurd (scanned.genuine_head.error_eq_none (by simp [last]) (by simp [last]) (by simp [last]))
    malformed

/-- A failure at a place blames the token there. -/
theorem blames {f : Failure} (h : s.Clean text) (placed : f.position = s.current.start)
    (lexical : ∀ m, s.current.error = some m → f.message = m ∧ f.arguments = []) :
    f.Blames text := by
  refine ⟨⟨s.current, h.mem List.mem_cons_self, placed.symm⟩, fun t mem start m malformed => ?_⟩
  have some_error : t.error ≠ none := by simp [malformed]
  obtain rfl := h.eq_current (h.ahead mem some_error) (start.trans placed) some_error
  exact lexical m malformed

end Stream.Clean

/-- Failures that disagree are not about a malformed token, so that another one may take their
place. -/
theorem Failure.Blames.contested {text : String} {e f : Failure} (h : e.Blames text)
    (h' : f.Blames text) (same : e.position = f.position) (differ : f.agrees e = false)
    (m : Message) : Failure.Blames text ⟨e.position, m, []⟩ := by
  refine ⟨h.placed, fun t mem start m malformed => ?_⟩
  obtain ⟨message, arguments⟩ := h.lexical t mem start m malformed
  obtain ⟨message', arguments'⟩ := h'.lexical t mem (start.trans same) m malformed
  simp [agrees, code, Failure.text, message, message', arguments, arguments'] at differ

/-- The ground where no malformed token has been read. -/
def Ground.sound (text : String) : Ground :=
  ⟨Stream.Clean text, Stream.Clean text, Failure.Blames text⟩

instance {text : String} : (Ground.sound text).Lawful where
  scanned := Stream.Clean.scanned
  here := id
  next here firm := Stream.Clean.next here firm.error
  failure {s} here m arguments := by
    refine Stream.Clean.blames here ?_ fun lexical malformed => ?_
    · unfold Lexeme.failure
      split <;> rfl
    · rw [Lexeme.failure, malformed]
      exact ⟨rfl, rfl⟩
  earlier {s t} here here' nearer m := by
    have sound := Stream.Clean.sound_of_nearer here here' nearer
    exact Stream.Clean.blames here rfl fun lexical malformed => by simp [sound] at malformed
  contested := Failure.Blames.contested

end Ambient

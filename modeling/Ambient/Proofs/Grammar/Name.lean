import Ambient.Proofs.Grammar.Modifiers
import Ambient.Proofs.Grammar.Yields

namespace Ambient

theorem Kind.isMemberName_of_isName {k : Kind} (h : k.isName = true) : k.isMemberName = true := by
  simp only [Kind.isName, Kind.isMemberName, Bool.or_eq_true, Bool.and_eq_true] at h ⊢
  rcases h with identifier | keyword
  · exact .inl identifier
  · exact .inr keyword.1

namespace Grammar

open Rule Node

variable {d : Nat} {s u : Stream}

theorem identifierOf_yields {t : Target} {allowed : Kind → Bool} {comment : Option String}
    {n : Node} (member : ∀ k, allowed k = true → k.isMemberName = true)
    (h : (identifierOf allowed comment).Leads d s n u)
    (mem : Shape.identifier ∈ t.shapes) : Yields 1 s 1 [(t, n)] u := by
  obtain ⟨token, v, here, h⟩ := h.bind
  obtain ⟨rfl, rfl⟩ := here.current
  rcases h.ite with ⟨is, h⟩ | ⟨-, h⟩
  · obtain ⟨_, v, step, h⟩ := h.bind
    obtain rfl := step.advance
    obtain ⟨rfl, rfl⟩ := h.pure
    exact .identifier comment (member _ is) mem
  · exact h.failHere.elim

theorem name_leads {comment : Option String} {n : Node} (h : (name comment).Leads d s n u) :
    ∃ text, n = .identifier text comment := by
  obtain ⟨token, v, here, h⟩ := h.bind
  rcases h.ite with ⟨-, h⟩ | ⟨-, h⟩
  · obtain ⟨_, v, step, h⟩ := h.bind
    exact ⟨_, h.pure.1⟩
  · exact h.failHere.elim

theorem name_reads {t : Target} {comment : Option String}
    (mem : Shape.identifier ∈ t.shapes) : (name comment).Reads 1 t :=
  fun h => (identifierOf_yields (fun _ => Kind.isMemberName_of_isName) h mem).weaken
    (Nat.le_refl 1) (by omega)

theorem anyName_yields {t : Target} {comment : Option String} {n : Node}
    (h : (anyName comment).Leads d s n u) (mem : Shape.identifier ∈ t.shapes) :
    Yields 1 s 1 [(t, n)] u :=
  identifierOf_yields (fun _ h => h) h mem

theorem anyName_reads {t : Target} {comment : Option String}
    (mem : Shape.identifier ∈ t.shapes) : (anyName comment).Reads 1 t :=
  fun h => (anyName_yields h mem).weaken (Nat.le_refl 1) (by omega)

theorem stringLiteral_yields {t : Target} (clean : s.current.error = none)
    (is : s.current.kind = .stringLiteral) (mem : Shape.stringLiteral ∈ t.shapes) :
    Yields 1 s 1 [(t, .stringLiteral s.current.value)] s.next :=
  .literal clean (by rw [is]; rfl) rfl rfl
    (.of_shape .stringLiteral (by simp [parts, Part.Lawful]) trivial rfl ⟨mem, rfl⟩)

theorem numericLiteral_yields {t : Target} (clean : s.current.error = none)
    (is : s.current.kind = .numericLiteral) (mem : Shape.numericLiteral ∈ t.shapes) :
    Yields 1 s 1 [(t, .numericLiteral s.current.value)] s.next :=
  .literal clean (by rw [is]; rfl) rfl rfl
    (.of_shape .numericLiteral (by simp [parts, Part.Lawful]) trivial rfl ⟨mem, rfl⟩)

theorem stringLiteral_leads {n : Node} (h : stringLiteral.Leads d s n u) :
    ∃ text, n = .stringLiteral text := by
  obtain ⟨token, v, here, h⟩ := h.bind
  rcases h.ite with ⟨-, h⟩ | ⟨-, h⟩
  · obtain ⟨_, v, step, h⟩ := h.bind
    exact ⟨_, h.pure.1⟩
  · exact h.failHere.elim

theorem stringLiteral_reads {t : Target} (mem : Shape.stringLiteral ∈ t.shapes) :
    stringLiteral.Reads 1 t := by
  intro d s n u h
  obtain ⟨token, v, here, h⟩ := h.bind
  obtain ⟨rfl, rfl⟩ := here.current
  rcases h.ite with ⟨is, h⟩ | ⟨-, h⟩
  · obtain ⟨_, v, step, h⟩ := h.bind
    obtain rfl := step.advance
    obtain ⟨rfl, rfl⟩ := h.pure
    simp only [Bool.and_eq_true, decide_eq_true_eq, Option.isNone_iff_eq_none] at is
    exact (stringLiteral_yields is.2 is.1 mem).weaken (Nat.le_refl 1) (by omega)
  · exact h.failHere.elim

theorem literal?_yields {t : Target} {x : Option Node} (h : literal?.Leads d s x u)
    (string : Shape.stringLiteral ∈ t.shapes)
    (number : Shape.numericLiteral ∈ t.shapes) :
    (∃ n, x = some n ∧ Yields 1 s 1 [(t, n)] u) ∨ (x = none ∧ s = u) := by
  obtain ⟨token, v, here, h⟩ := h.bind
  obtain ⟨rfl, rfl⟩ := here.current
  rcases h.ite with ⟨-, h⟩ | ⟨clean, h⟩
  · exact .inr h.pure
  · have clean : s.current.error = none := by simpa using clean
    rcases h.ite with ⟨is, h⟩ | ⟨-, h⟩
    · obtain ⟨_, v, step, h⟩ := h.bind
      obtain rfl := step.advance
      obtain ⟨rfl, rfl⟩ := h.pure
      exact .inl ⟨_, rfl, stringLiteral_yields clean is string⟩
    · rcases h.ite with ⟨is, h⟩ | ⟨-, h⟩
      · obtain ⟨_, v, step, h⟩ := h.bind
        obtain rfl := step.advance
        obtain ⟨rfl, rfl⟩ := h.pure
        exact .inl ⟨_, rfl, numericLiteral_yields clean is number⟩
      · exact .inr h.pure

theorem entityName_reads : entityName.Reads 1 (.category .entityName) := by
  intro d s n u h
  obtain ⟨first, v, read, h⟩ := h.bind
  have start := identifierOf_yields (t := .category .entityName)
    (fun _ => Kind.isMemberName_of_isName) read (by decide)
  -- what stands left of a dot has been read as a name already
  have climbed : ∃ d' ≤ d, d' ≤ d ∧ Yields (d - d' + 1) s 1 [(.category .entityName, n)] u := by
    refine Leads.climb (P := fun d' n v => d' ≤ d ∧
      Yields (d - d' + 1) s 1 [(.category .entityName, n)] v) ?_ ?_ ?_ h
      ⟨Nat.le_refl d, start.weaken (Nat.le_refl 1) (by omega)⟩
    · intro d' left n v w x before here step
      obtain ⟨le, before⟩ := before
      obtain ⟨dot, rfl⟩ := here.atKind
      obtain ⟨_, w, step', step⟩ := step.bind
      obtain rfl := step'.advance
      obtain ⟨right, w, read, step⟩ := step.bind
      obtain ⟨eq, rfl⟩ := step.pure
      obtain rfl := Option.some.inj eq
      have dot : Yields 0 v 1 [] v.next := .mark (by rw [of_decide_eq_true dot.symm]; decide)
      exact ⟨by omega, .node (before.trans (dot.trans (anyName_yields read (by decide))))
        (.of_shape .qualifiedName (by simp [parts, Part.Lawful]) trivial rfl (by decide)) rfl
          (by omega)⟩
    · intro d' left v w before here
      obtain ⟨-, rfl⟩ := here.atKind
      exact before
    · intro d' left v w step
      obtain ⟨_, w, step', step⟩ := step.bind
      obtain ⟨right, w, read, step⟩ := step.bind
      cases step.pure.1
  obtain ⟨d', -, -, y⟩ := climbed
  exact y.weaken (Nat.le_refl 1) (by omega)

theorem propertyName_reads {comment : Option String} :
    (propertyName comment).Reads 1 (.category .propertyName) := by
  intro d s n u h
  obtain ⟨token, v, here, h⟩ := h.bind
  obtain ⟨rfl, rfl⟩ := here.current
  rcases h.ite with ⟨-, h⟩ | ⟨-, h⟩
  · exact anyName_reads (by decide) h
  · obtain ⟨found, v, read, h⟩ := h.bind
    rcases literal?_yields (t := .category .propertyName) read (by decide) (by decide) with
      ⟨m, rfl, yields⟩ | ⟨rfl, rfl⟩
    · obtain ⟨rfl, rfl⟩ := h.pure
      exact yields.weaken (Nat.le_refl 1) (by omega)
    · exact h.failHere.elim

theorem modifiers_yields {allowed : List Kind} {l : Option (List Node)}
    (h : (modifiers allowed).Leads d s l u)
    (tokens : ∀ k ∈ allowed, Shape.token.accepts k = true ∧ k.isMark = true) :
    Yields 1 s 0 (Part.modifiers l).places u ∧ (Part.modifiers l).Lawful allowed := by
  obtain ⟨kinds, read, distinct, rfl⟩ := modifiers_read h
  have seen : Yields 1 s 0 (kinds.map fun k => (.shape .token, .token k)) u ∧
      ∀ k ∈ kinds, k ∈ allowed := by
    clear h distinct
    induction read with
    | nil s => exact ⟨.nothing s, by simp⟩
    | cons mem follows others ih =>
      obtain ⟨accepted, mark⟩ := tokens _ mem
      exact ⟨((Yields.token accepted mark (by decide)).trans ih.1).weaken (Nat.zero_le _) (by omega),
        List.forall_mem_cons.mpr ⟨mem, ih.2⟩⟩
  obtain ⟨yields, all⟩ := seen
  cases kinds with
  | nil => exact ⟨yields, by simp [Part.Lawful]⟩
  | cons k kinds =>
    have kinds_eq : ((k :: kinds).map Node.token).map Node.kind = k :: kinds := by
      rw [List.map_map]
      exact List.map_id _
    refine ⟨?_, by simp, ?_, ?_⟩
    · simpa [Part.places, Function.comp_def] using yields
    · show (((k :: kinds).map Node.token).map Node.kind).Nodup
      rw [kinds_eq]
      exact distinct
    · intro m hm
      have mem : m.kind ∈ ((k :: kinds).map Node.token).map Node.kind := List.mem_map_of_mem hm
      rw [kinds_eq] at mem
      exact all _ mem

theorem declarationModifiers_yields {allowed : List Kind} {l : Option (List Node)}
    (h : (declarationModifiers allowed).Leads d s l u)
    (tokens : ∀ k ∈ allowed, Shape.token.accepts k = true ∧ k.isMark = true) :
    Yields 1 s 0 (Part.modifiers l).places u ∧ (Part.modifiers l).Lawful allowed := by
  obtain ⟨read, v, loop, h⟩ := h.bind
  obtain ⟨_, v', refuse, h⟩ := h.bind
  obtain rfl := refuseModifier_leads refuse
  obtain ⟨rfl, rfl⟩ := h.pure
  exact modifiers_yields loop tokens

theorem memberModifiers_yields {l : Option (List Node)} (h : memberModifiers.Leads d s l u) :
    Yields 1 s 0 (Part.modifiers l).places u ∧ (Part.modifiers l).Lawful [.readonlyKeyword] := by
  obtain ⟨read, v, loop, h⟩ := h.bind
  obtain ⟨_, v', refuse, h⟩ := h.bind
  obtain rfl := refuseModifier_leads refuse
  obtain ⟨rfl, rfl⟩ := h.pure
  exact modifiers_yields loop (by decide)

end Grammar

end Ambient

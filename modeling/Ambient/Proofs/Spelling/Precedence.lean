import Ambient.Proofs.Parse.Termination
import Ambient.Proofs.Spelling.Type

namespace Ambient

namespace Rule

variable {α : Type} {ws : List Word} {a : α} {l : Nat} {P Q : Kind → Prop}

theorem Recites.nested {r : Rule Nat α} (h : r.Recites ws a l P) :
    (nested r).Recites ws a (l + 1) P := by
  intro o depth s u scanned spells ends room
  exact .nested (by omega) (h scanned spells ends (by omega))

theorem Chains.mono {first : Rule Nat α} {step : α → Rule Nat (Option α)} {k : Nat}
    (h : Chains first step ws a k l P) (le : ∀ k, Q k → P k) : Chains first step ws a k l Q :=
  fun _ _ _ _ scanned spells ends room => h scanned spells (le _ ends) room

theorem Chains.deeper {first : Rule Nat α} {step : α → Rule Nat (Option α)} {k l' : Nat}
    (h : Chains first step ws a k l P) (le : l ≤ l') : Chains first step ws a k l' P :=
  fun _ _ _ _ scanned spells ends room => h scanned spells ends (by omega)

end Rule

namespace Grammar

open Rule Node

variable {n t : Node} {ns : List Node} {k : Kind} {l : Nat} {w : Word} {ws : List Word}
variable {P Q : Kind → Prop}

/-- Behind a type and its brackets no further ones stand in front of a token of kind `k`. -/
abbrev PostfixEnds (k : Kind) : Prop := PrimaryEnds k ∧ k ≠ .openBracketToken

theorem bracketed_array : (bracketed type n).Rises [.mark .openBracketToken, .mark .closeBracketToken]
    (some (.arrayType n)) 1 P := by
  rintro o depth s u - ⟨opened, -, close, -, rfl⟩ - room
  exact .bind (.atKindOnLine opened.kind opened.line) (.ite_pos rfl (.bind (.enterLevel room)
    (.bind .advance (.bind (.accept close.kind) (.ite_pos rfl .pure)))))

theorem bracketed_index (h : type.ReadsBack t l) :
    (bracketed type n).Rises (.mark .openBracketToken :: (t.spelled ++ [.mark .closeBracketToken]))
      (some (.indexedAccessType n t)) (l + 1) P := by
  have inside : Recites (do
      if ← accept .closeBracketToken then return some (.arrayType n)
      else
        let index ← type
        expect .closeBracketToken
        return some (.indexedAccessType n index) : Rule Nat (Option Node))
      (t.spelled ++ [.mark .closeBracketToken]) (some (.indexedAccessType n t)) l P := by
    have start : Word.Starts (· ≠ .closeBracketToken) t.spelled fun _ => True :=
      h.starts fun k start is => start (is ▸ by decide)
    exact .accept_other start.front (.ite_neg Bool.false_ne_true
      (.bind h.recites (.last .expect .pure) (.cons (by decide))))
  rintro o depth s u scanned ⟨opened, -, behind⟩ ends room
  have next : depth + 1 + l ≤ o.depthLimit := by omega
  exact .bind (.atKindOnLine opened.kind opened.line) (.ite_pos rfl (.bind (.enterLevel (by omega))
    (.bind .advance (inside scanned.next behind ends next))))

theorem bracketed_stops (n : Node) (o : Options) (s : State Nat)
    (other : s.stream.current.kind ≠ .openBracketToken) : (bracketed type n).Gives o s none s :=
  .bind (.atKindOnLine_not other) (.ite_neg Bool.false_ne_true .pure)

theorem postfixType_recites {k : Nat} (h : Chains (primaryType type) (bracketed type) ws n k l P)
    (le : ∀ k, Q k → P k ∧ k ≠ .openBracketToken) : (postfixType type).Recites ws n l Q :=
  (h.mono fun k ends => (le k ends).1).close fun o s ends =>
    bracketed_stops n o s (le _ ends).2

theorem operatorType_recites (h : (operatorCall (fun _ => operatorType type) ()).Recites ws n l P) :
    (operatorType type).Recites ws n l P := by
  intro o depth s u scanned spells ends room
  have same := descends_operatorType _ (fun _ => operatorType type) (fun _ _ _ _ _ => rfl) () o
    ⟨s, depth⟩ scanned (Nat.le_refl _)
  exact same.symm.trans (h scanned spells ends room)

theorem operand_recites (no_operator : w.kind.isTypeOperator = false)
    (h : (postfixType type).Recites (w :: ws) n l P) : (operatorType type).Recites (w :: ws) n l P :=
  operatorType_recites (.current fun t here =>
    .ite_neg (by rw [here.kind, no_operator]; exact Bool.false_ne_true) h)

theorem typeOperator_recites (is : k.isTypeOperator = true)
    (h : (operatorType type).Recites n.spelled n l P) :
    (operatorType type).Recites (Node.typeOperator k n).spelled (.typeOperator k n) (l + 1) P := by
  refine operatorType_recites (.current fun t here => ?_)
  have kind : t.kind = k := here.kind
  rw [kind]
  exact .ite_pos is (.andThen .advance (.last h.nested .pure))

variable {separator : Kind} {join : List Node → Node} {term : Rule Nat Node}

/-- A single term is left as it is. -/
theorem terms_recites_single (h : term.Recites n.spelled n l P)
    (start : Word.Starts (· ≠ separator) n.spelled P) (differ : ∀ k, P k → k ≠ separator) :
    (terms separator join term).Recites n.spelled n l P := by
  have no_more : (many (optionalAfter separator term)).Recites [] [] l P := by
    rintro o depth s u - rfl ends -
    exact .many_none (.optionalAfter_not (differ _ ends))
  exact .accept_other start (.last h (.last no_more .pure))

theorem terms_recites {types : List Node} (several : 2 ≤ types.length)
    (each : ∀ m ∈ types, term.Recites m.spelled m l P)
    (start : ∀ m ∈ types, Word.Starts (· ≠ separator) m.spelled fun _ => True) (apart : P separator)
    (ends : ∀ k, Q k → P k ∧ k ≠ separator) :
    (terms separator join term).Recites (spelledList separator types) (join types) l Q := by
  match types, several with
  | a :: b :: as, _ =>
    obtain ⟨first, each⟩ := List.forall_mem_cons.mp each
    have others : (many (optionalAfter separator term)).Recites
        ((b :: as).flatMap fun m => .mark separator :: m.spelled) (b :: as) l Q := by
      refine .many_alike (P := P) (fun m mem => ?_) (fun m _ => ⟨_, _, rfl, apart⟩)
        (fun k is => (ends k is).1) ?_
      · exact .andThen .accept (each m mem).map
      · exact .mono .optionalAfter_none fun k is => (ends k is).2
    rw [spelledList_cons]
    exact .accept_other (start a List.mem_cons_self).front (.bind first (.last others .pure)
      (.cons apart))

theorem type_recites (h : (unionType type).Recites ws n l P) : type.Recites ws n (l + 1) P := by
  intro o depth s u scanned spells ends room
  have same := descends_type _ (fun _ => type) (fun _ _ _ _ _ => rfl) () o ⟨s, depth⟩ scanned
    (Nat.le_refl _)
  exact same.symm.trans (h.nested scanned spells ends room)

/-- An intersection ends in front of a token of kind `k`. -/
abbrev IntersectionEnds (k : Kind) : Prop := PostfixEnds k ∧ k ≠ .ampersandToken

/-- A type is read back wherever it may stand. -/
structure Reads (n : Node) : Prop where
  opening : ∃ w ws, n.Opening w ws
  inFront : n.looseness = 0 →
    Chains (primaryType type) (bracketed type) n.spelled n n.chain n.openLevels PrimaryEnds
  asOperand : n.looseness ≤ 1 → (operatorType type).Recites n.spelled n n.openLevels PostfixEnds
  asTerm : n.looseness ≤ 2 → (intersectionType type).Recites n.spelled n n.openLevels IntersectionEnds
  asUnion : (unionType type).Recites n.spelled n n.openLevels TypeEnds

theorem intersectionEnds_of_typeEnds {k : Kind} (h : TypeEnds k) :
    IntersectionEnds k ∧ k ≠ .barToken := by
  have differ {k' : Kind} (mem : k' ∈ typeBelongings) : k ≠ k' := fun is => h (is ▸ mem)
  exact ⟨⟨⟨⟨differ (by decide), differ (by decide)⟩, differ (by decide)⟩, differ (by decide)⟩,
    differ (by decide)⟩

theorem starts_other {k : Kind} (opening : ∃ w ws, n.Opening w ws) (no_start : k ∈ noTypeStart) :
    Word.Starts (· ≠ k) n.spelled P := by
  obtain ⟨w, ws, opening⟩ := opening
  rw [opening.spelled_eq]
  exact .cons fun is => opening.opens.start (is ▸ no_start)

theorem term_of_operand (opening : ∃ w ws, n.Opening w ws)
    (h : (operatorType type).Recites n.spelled n l P) (le : ∀ k, Q k → P k ∧ k ≠ .ampersandToken) :
    (intersectionType type).Recites n.spelled n l Q :=
  terms_recites_single (h.mono fun k ends => (le k ends).1) (starts_other opening (by decide))
    fun k ends => (le k ends).2

theorem union_of_term (opening : ∃ w ws, n.Opening w ws)
    (h : (intersectionType type).Recites n.spelled n l P) (le : ∀ k, Q k → P k ∧ k ≠ .barToken) :
    (unionType type).Recites n.spelled n l Q :=
  terms_recites_single (h.mono fun k ends => (le k ends).1) (starts_other opening (by decide))
    fun k ends => (le k ends).2

namespace Reads

theorem readsBack (h : Reads n) : type.ReadsBack n (n.openLevels + 1) :=
  ⟨type_recites h.asUnion, h.opening⟩

theorem of_union (opening : ∃ w ws, n.Opening w ws) (loose : 2 < n.looseness)
    (h : (unionType type).Recites n.spelled n n.openLevels TypeEnds) : Reads n where
  opening := opening
  inFront _ := by omega
  asOperand _ := by omega
  asTerm _ := by omega
  asUnion := h

theorem of_term (opening : ∃ w ws, n.Opening w ws) (loose : 1 < n.looseness)
    (h : (intersectionType type).Recites n.spelled n n.openLevels IntersectionEnds) : Reads n where
  opening := opening
  inFront _ := by omega
  asOperand _ := by omega
  asTerm _ := h
  asUnion := union_of_term opening h fun _ => intersectionEnds_of_typeEnds

theorem of_operand (opening : ∃ w ws, n.Opening w ws) (loose : 0 < n.looseness)
    (h : (operatorType type).Recites n.spelled n n.openLevels PostfixEnds) : Reads n where
  opening := opening
  inFront _ := by omega
  asOperand _ := h
  asTerm _ := term_of_operand opening h fun _ ends => ends
  asUnion := union_of_term opening (term_of_operand opening h fun _ ends => ends)
    fun _ => intersectionEnds_of_typeEnds

theorem of_chain (opening : ∃ w ws, n.Opening w ws) (tight : n.looseness = 0)
    (h : Chains (primaryType type) (bracketed type) n.spelled n n.chain n.openLevels PrimaryEnds) :
    Reads n := by
  have operand : (operatorType type).Recites n.spelled n n.openLevels PostfixEnds := by
    obtain ⟨w, ws, first⟩ := opening
    have read := postfixType_recites (Q := PostfixEnds) h fun _ ends => ends
    rw [first.spelled_eq] at read ⊢
    exact operand_recites (first.tight tight) read
  exact {
    opening := opening
    inFront := fun _ => h
    asOperand := fun _ => operand
    asTerm := fun _ => term_of_operand opening operand fun _ ends => ends
    asUnion := union_of_term opening (term_of_operand opening operand fun _ ends => ends)
      fun _ => intersectionEnds_of_typeEnds }

/-- A type that has no brackets behind it. -/
theorem of_primary (opening : ∃ w ws, n.Opening w ws) (tight : n.looseness = 0) (last : n.chain = 0)
    (h : (primaryType type).Recites n.spelled n n.openLevels PrimaryEnds) : Reads n := by
  refine of_chain opening tight ?_
  rw [last]
  exact .base h

/-- A type with one more pair of brackets behind it. -/
theorem of_bracketed {m : Node} {vs : List Word} (inner : Reads m) (tight : m.looseness = 0)
    (opening : ∃ w ws, n.Opening w ws) (tight' : n.looseness = 0)
    (eq : n.spelled = m.spelled ++ .mark .openBracketToken :: vs) (last : n.chain = m.chain + 1)
    (front : m.openLevels ≤ n.openLevels)
    (next : (bracketed type m).Rises (.mark .openBracketToken :: vs) (some n) l PrimaryEnds)
    (room : m.chain + l ≤ n.openLevels) : Reads n := by
  refine of_chain opening tight' ?_
  rw [eq, last]
  exact ((inner.inFront tight).deeper front).snoc next (by decide) room

/-- A type that ends with another one, so that nothing can stand behind it that could belong to that. -/
theorem of_function (opening : ∃ w ws, n.Opening w ws) (loose : 2 < n.looseness)
    (start : Word.Starts (fun k => k.isTypeOperator = false) n.spelled fun _ => True)
    (h : (primaryType type).Recites n.spelled n n.openLevels TypeEnds) : Reads n := by
  have single : Chains (primaryType type) (bracketed type) n.spelled n 0 n.openLevels TypeEnds := .base h
  have read := postfixType_recites (Q := TypeEnds) single fun k ends =>
    ⟨ends, (intersectionEnds_of_typeEnds ends).1.1.2⟩
  have operand : (operatorType type).Recites n.spelled n n.openLevels TypeEnds := by
    obtain ⟨w, ws, first⟩ := opening
    rw [first.spelled_eq] at read start ⊢
    exact operand_recites start read
  have term := term_of_operand (Q := TypeEnds) opening operand fun k ends =>
    ⟨ends, (intersectionEnds_of_typeEnds ends).1.2⟩
  exact of_union opening loose (union_of_term opening term fun k ends =>
    ⟨ends, (intersectionEnds_of_typeEnds ends).2⟩)

end Reads

end Grammar

end Ambient

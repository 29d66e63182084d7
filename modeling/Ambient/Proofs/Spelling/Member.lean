import Ambient.Proofs.Grammar.Unambiguous
import Ambient.Proofs.Spelling.Signature

namespace Ambient

variable {α : Type}

/-- An alternative succeeds among others that exclude it. -/
theorem Rule.Gives.alternatives_of_coincide {rules : List (Rule Nat Node)} {related : Node → Node → Prop}
    {r : Rule Nat Node} {n : Node} {o : Options} {s t : State Nat} {fallback : Message}
    (balanced : ∀ q ∈ rules, Balanced q)
    (pairs : rules.Pairwise (Grammar.Coincide related o s)) (mem : r ∈ rules) (h : r.Gives o s n t)
    (alone : ∀ n', ¬ related n' n) : (Rule.alternatives rules fallback).Gives o s n t := by
  obtain ⟨before, after, rfl⟩ := List.append_of_mem mem
  refine .alternatives before (fun q here => ⟨balanced q (by simp [here]), ?_⟩) h
  have coincide := (List.pairwise_append.mp pairs).2.2 q here r List.mem_cons_self
  rcases eq : q o s with ⟨_ | n', t'⟩
  · exact ⟨_, _, eq⟩
  · exact absurd (coincide n' n t' t eq h) (alone n')

namespace Grammar

open Rule Node

variable {type : Rule Nat Node} {n t : Node} {m question : Option Node} {ms? : Option (List Node)}
variable {l : Nat} {ws : List Word} {P Q : Kind → Prop}

theorem starts_propertyName (h : n.IsName ∨ n.IsLiteral) (name : P .identifier)
    (string : P .stringLiteral) (number : P .numericLiteral) :
    Word.Starts P n.spelled fun _ => True := by
  rcases h with is | ⟨text, -, rfl⟩ | ⟨text, -, rfl⟩
  · exact is.starts name
  · exact .cons string
  · exact .cons number

/-- Words have no comments in front of them. -/
theorem documentationHere_recites {f : Option String → Rule Nat α} {a : α} (filled : ws ≠ [])
    (h : (f none).Recites ws a l P) : (documentationHere >>= f).Recites ws a l P := by
  obtain ⟨w, ws, rfl⟩ := List.exists_cons_of_ne_nil filled
  intro o depth s u scanned spells ends room
  have none_here : documentationHere.Gives o ⟨s, depth⟩ none ⟨s, depth⟩ := by
    simp [Gives, documentationHere, spells.1.comment]
  exact .bind none_here (h scanned spells ends room)

theorem memberEnd_recites : memberEnd.Recites [.mark .semicolonToken] () l P :=
  .accept_other (.cons (by decide)) (.ite_neg Bool.false_ne_true
    (.current fun _ here => .ite_pos here.kind .advance))

theorem refuseModifier_recites {message : Message} {exempted : Kind → Bool} {f : Unit → Rule Nat α} {a : α}
    (other : Word.Starts (fun k => (k.isModifier && !exempted k) = false) ws Q)
    (h : (f ()).Recites ws a l Q) : (refuseModifier message exempted >>= f).Recites ws a l Q := by
  intro o depth s u scanned spells ends room
  refine .bind (refuseModifier_gives ?_) (h scanned spells ends room)
  rw [nextModifies, other.current spells ends, Bool.false_and]

theorem memberModifiers_recites (modify : Modifies typeMemberModifiers ms?) :
    memberModifiers.Recites (spelledAll? ms?) ms? l
      fun k => canFollowModifier k = true ∧ k.isModifier = false := by
  refine .mono (.last (.mono (modifiers_recites modify (by decide) (by decide)) fun k ends =>
    ⟨ends.1, fun mem => ?_⟩) (refuseModifier_recites (.nil fun k ends => ?_) .pure)) fun _ ends => ends
  · obtain rfl := List.mem_singleton.mp mem
    exact absurd ends.2 (by decide)
  · rw [ends.2, Bool.false_and]

theorem annotatedType_recites {missing : Message} (h : type.Recites t.spelled t l TypeEnds) :
    (annotatedType type missing).Recites (.mark .colonToken :: t.spelled) t l TypeEnds :=
  .andThen .accept (.ite_pos rfl h)

theorem propertySignature_recites (modify : Modifies typeMemberModifiers ms?)
    (name : n.IsName ∨ n.IsLiteral) (mark : IsMark .questionToken question)
    (inner : type.Recites t.spelled t l TypeEnds) :
    (propertySignature type).Recites (Node.propertySignature ms? n question t).spelled
      (.propertySignature ms? n question t) l P := by
  have annotated : (do
      expect .colonToken
      let value ← type
      memberEnd
      return .propertySignature ms? n question value : Rule Nat Node).Recites
      (.mark .colonToken :: (t.spelled ++ [.mark .semicolonToken]))
      (.propertySignature ms? n question t) l P :=
    .andThen .expect (.bind inner (.last memberEnd_recites .pure) (.cons (by decide)))
  refine documentationHere_recites (by simp [spelled]) (.bind (memberModifiers_recites modify)
    (.andThen (propertyName_recites name) (.bind (.token? mark) annotated (.cons (by decide)))) ?_)
  exact (starts_propertyName name (by decide) (by decide) (by decide)).front

theorem methodSignature_recites {tps ps : Option (List Node)} (name : n.IsName ∨ n.IsLiteral)
    (mark : IsMark .questionToken question) (signature : ReadsSignature type tps ps t l) :
    (methodSignature type).Recites (Node.methodSignature n question tps ps t).spelled
      (.methodSignature n question tps ps t) l P := by
  have rest : (do
      let tps ← typeParameters type
      let ps ← parameters type
      let t ← annotatedResult type
      memberEnd
      return .methodSignature n question tps ps t : Rule Nat Node).Recites
      (spelledInAngles tps ++ (spelledInParens ps ++
        .mark .colonToken :: (t.spelled ++ [.mark .semicolonToken])))
      (.methodSignature n question tps ps t) l P :=
    signature.recites rfl (.last memberEnd_recites .pure) (.cons (by decide))
  refine documentationHere_recites (by simp [spelled]) (.andThen (propertyName_recites name)
    (.bind (.token? mark) rest ?_))
  cases tps with
  | some tps => exact .cons (by decide)
  | none =>
    cases ps with
    | none | some ps => exact .cons (by decide)

theorem callSignature_recites {tps ps : Option (List Node)}
    (signature : ReadsSignature type tps ps t l) :
    (callSignature type).Recites (Node.callSignature tps ps t).spelled (.callSignature tps ps t) l P :=
  signature.recites rfl (.last memberEnd_recites .pure) (.cons (by decide))

theorem constructSignature_recites {tps ps : Option (List Node)}
    (signature : ReadsSignature type tps ps t l) :
    (constructSignature type).Recites (Node.constructSignature tps ps t).spelled
      (.constructSignature tps ps t) l P :=
  .andThen .expect (signature.recites rfl (.last memberEnd_recites .pure) (.cons (by decide)))

theorem indexMember_recites {key : Node} (modify : Modifies typeMemberModifiers ms?) (name : key.IsName)
    (keys : type.Recites n.spelled n l TypeEnds) (inner : type.Recites t.spelled t l TypeEnds) :
    (indexMember type).Recites
      (Node.indexSignature ms? [.parameter none none key none n] t).spelled
      (.indexSignature ms? [.parameter none none key none n] t) l P := by
  have value : (do
      let value ← annotatedType type .indexTypeMissing
      return .indexSignature ms? [.parameter none none key none n] value : Rule Nat Node).Recites
      (.mark .colonToken :: t.spelled) (.indexSignature ms? [.parameter none none key none n] t) l
      TypeEnds := .last (annotatedType_recites inner) .pure
  have signature : (indexSignature type ms?).Recites
      (.mark .openBracketToken :: (key.spelled ++ (.mark .colonToken :: n.spelled ++
        .mark .closeBracketToken :: .mark .colonToken :: t.spelled)))
      (.indexSignature ms? [.parameter none none key none n] t) l TypeEnds :=
    .andThen .expect (.andThen (name_recites name) (.bind (annotatedType_recites keys)
      (.andThen .expect value) (.cons (by decide))))
  have all : (indexMember type).Recites (spelledAll? ms? ++ (.mark .openBracketToken :: (key.spelled ++
      (.mark .colonToken :: n.spelled ++ .mark .closeBracketToken :: .mark .colonToken :: t.spelled)) ++
        [.mark .semicolonToken])) _ l P :=
    .bind (memberModifiers_recites modify) (.bind signature (.last memberEnd_recites .pure)
      (.cons (by decide))) (.cons (by decide))
  simpa [spelled, spelledAll, spelledAll?, spelled?] using all

/-- The rules for members of object types, in the order in which they are tried. -/
abbrev memberRules (type : Rule Nat Node) : List (Rule Nat Node) := [
  indexMember type, callSignature type, constructSignature type, propertySignature type,
  methodSignature type]

/-- Kinds with which members start. -/
def memberStart : List Kind := [
  .readonlyKeyword, .identifier, .stringLiteral, .numericLiteral, .openBracketToken, .lessThanToken,
  .openParenToken, .newKeyword]

theorem starts_signature {tps ps : Option (List Node)} (angle : P .lessThanToken)
    (parenthesis : P .openParenToken) :
    Word.Starts P (spelledInAngles tps ++ (spelledInParens ps ++ ws)) Q := by
  cases tps with
  | some tps => exact .cons angle
  | none =>
    cases ps with
    | none | some ps => exact .cons parenthesis

theorem starts_member (h : Written .member n) (all : ∀ k ∈ memberStart, P k) :
    Word.Starts P n.spelled Q := by
  have named {n : Node} (h : n.IsName ∨ n.IsLiteral) : Word.Starts P n.spelled fun _ => True :=
    starts_propertyName h (all _ (by decide)) (all _ (by decide)) (all _ (by decide))
  have modifiers : ∀ k ∈ typeMemberModifiers, P k := List.forall_mem_singleton.mpr (all _ (by decide))
  cases h with
  | propertySignature modify name => exact modify.starts modifiers (named name).front
  | methodSignature name => exact (named name).front
  | callSignature => exact starts_signature (all _ (by decide)) (all _ (by decide))
  | constructSignature => exact .cons (all _ (by decide))
  | indexSignature modify => exact modify.starts modifiers (.cons (all _ (by decide)))

/-- A name that is no keyword is not `new`. -/
theorem not_newSignature (h : Written .member n) (n' : Node) : ¬ NewSignature n' n := by
  intro new
  cases new
  cases h with
  | methodSignature name =>
    rcases name with ⟨text, token, eq⟩ | ⟨text, -, eq⟩ | ⟨text, -, eq⟩
    · obtain ⟨rfl, -⟩ := Node.identifier.inj eq
      exact absurd (Word.keyword?_eq_none token) (by decide)
    · cases eq
    · cases eq

theorem typeMember_recites [Balanced type] {r : Rule Nat Node} (h : Written .member n)
    (mem : r ∈ memberRules type) (read : r.Recites n.spelled n l P) :
    (typeMember type).Recites n.spelled n l P := by
  have chosen : (alternatives (memberRules type) .typeMemberExpected).Recites n.spelled n l P := by
    intro o depth s u scanned spells ends room
    exact .alternatives_of_coincide (balanced_typeMemberRules type)
      (typeMembers_coincide (s := ⟨s, depth⟩) scanned) mem (read scanned spells ends room)
      (not_newSignature h)
  exact refuseModifier_recites (starts_member h (by decide)) chosen

theorem typeMembers_recites {members : List Node} (written : ∀ n ∈ members, Written .member n)
    (each : ∀ n ∈ members, (typeMember type).Recites n.spelled n l fun _ => True) :
    (typeMembers type).Recites
      (.mark .openBraceToken :: (spelledAll members ++ [.mark .closeBraceToken])) members l P := by
  let ends (k : Kind) : Bool := k = .closeBraceToken || k = .endOfFileToken
  let value (s : Stream) : Bool := ends s.current.kind
  have gives (o : Options) (s : State Nat) : atBlockEnd.Gives o s (value s.stream) s :=
    .bind .current .pure
  have read : (many (furtherTypeMember type)).Recites (members.flatMap spelled) members l
      (· = .closeBraceToken) := by
    refine .many_alike (P := fun _ => True) (fun n mem => ?_) (fun n mem => ?_) (fun _ _ => trivial)
      (.ask gives (fun s u spells is => ?_) (.ite_pos rfl .pure))
    · have start : Word.Starts (fun k => ends k = false) n.spelled fun _ => True :=
        starts_member (written n mem) (by decide)
      exact .ask gives (fun s u spells is => start.current spells is)
        (.ite_neg Bool.false_ne_true (each n mem).map)
    · cases eq : n.spelled with
      | cons w ws => exact ⟨w, ws, rfl, trivial⟩
      | nil =>
        have start : Word.Starts (fun k => ends k = false) n.spelled fun _ => True :=
          starts_member (written n mem) (by decide)
        rw [eq] at start
        exact absurd (start .closeBraceToken trivial) (by decide)
    · obtain rfl := show s = u from spells
      have close : s.current.kind = .closeBraceToken := is
      simp [value, ends, close]
  rw [spelledAll_eq]
  exact .andThen .expect (.bind read (.last .expect .pure) (.cons rfl))

end Grammar

end Ambient

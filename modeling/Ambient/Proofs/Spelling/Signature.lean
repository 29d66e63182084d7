import Ambient.Proofs.Grammar.Signature
import Ambient.Proofs.Spelling.Chains

namespace Ambient

/-- Kinds that could belong to a type in front of them. -/
def typeBelongings : List Kind := [
  .dotToken, .lessThanToken, .openBracketToken, .ampersandToken, .barToken, .isKeyword]

/-- A type ends in front of a token of kind `k`. -/
abbrev TypeEnds (k : Kind) : Prop := k ∉ typeBelongings

/-- A type is read back where it is written. -/
structure Rule.ReadsBack (type : Rule Nat Node) (n : Node) (levels : Nat) : Prop where
  recites : type.Recites n.spelled n levels TypeEnds
  opening : ∃ w ws, n.Opening w ws

namespace Rule

variable {type : Rule Nat Node} {n : Node} {l l' : Nat} {P Q : Kind → Prop}

theorem ReadsBack.deeper (h : type.ReadsBack n l) (le : l ≤ l') : type.ReadsBack n l' :=
  ⟨h.recites.deeper le, h.opening⟩

/-- A type starts with no token of some kinds. -/
theorem ReadsBack.starts (h : type.ReadsBack n l) (all : ∀ k, k ∉ noTypeStart → P k) :
    Word.Starts P n.spelled Q := by
  obtain ⟨w, ws, opening⟩ := h.opening
  rw [opening.spelled_eq]
  exact .cons (all _ opening.opens.start)

end Rule

section

variable {n : Node} {m : Option Node} {k : Kind} {ws : List Word} {P Q : Kind → Prop}

theorem Node.IsName.starts (h : n.IsName) (is : P .identifier) : Word.Starts P n.spelled Q := by
  obtain ⟨text, rfl, identifier⟩ := h.eq_name
  exact .cons (identifier ▸ is)

theorem Node.IsMark.starts (h : IsMark k m) (is : P k) (others : Word.Starts P ws Q) :
    Word.Starts P (spelled? m ++ ws) Q := by
  cases m with
  | none => exact others
  | some n =>
    obtain rfl := h n rfl
    exact .cons is

theorem Node.Modifies.starts {allowed : List Kind} {ms : Option (List Node)}
    (h : Modifies allowed ms) (is : ∀ k ∈ allowed, P k) (others : Word.Starts P ws Q) :
    Word.Starts P (spelledAll? ms ++ ws) Q := by
  obtain ⟨ks, -, mem, rfl⟩ := h
  cases ks with
  | nil => exact others
  | cons k ks => exact .cons (is k (mem k List.mem_cons_self))

end

namespace Grammar

open Rule Node

variable {type : Rule Nat Node} {n : Node} {m : Option Node} {ns : List Node} {ns? : Option (List Node)}
variable {l : Nat} {P Q : Kind → Prop}

/-- Elements in angle brackets, behind the opening one. -/
theorem inAngles_recites {item : Rule Nat Node} (trailing : Bool) (empty : Message) (filled : ns ≠ [])
    (each : ∀ a ∈ ns, item.Recites a.spelled a l P) (comma : P .commaToken)
    (close : P .greaterThanToken)
    (differ : ∀ a ∈ ns, Word.Starts (· ≠ .greaterThanToken) a.spelled fun _ => True) :
    (do
      if ← atKind .greaterThanToken then failHere empty
      else
        let read ← delimited .greaterThanToken trailing item
        expect .greaterThanToken
        return read : Rule Nat (List Node)).Recites
      (spelledList .commaToken ns ++ [.mark .greaterThanToken]) ns l Q := by
  obtain ⟨a, as, rfl⟩ := List.exists_cons_of_ne_nil filled
  rw [spelledList_cons]
  have list := Recites.delimited trailing each comma differ
  have behind : Word.Starts (fun k => k ≠ .commaToken ∧ P k) [.mark .greaterThanToken] Q :=
    .cons ⟨by decide, close⟩
  have first := differ a List.mem_cons_self
  refine .atKind_other ?_ (.ite_neg Bool.false_ne_true (list.bind (.last .expect .pure) behind))
  rw [List.append_assoc]
  exact first.front

theorem typeArguments_recites (filled : ns ≠ []) (each : ∀ a ∈ ns, type.ReadsBack a l) :
    (typeArguments type).Recites (spelledInAngles (some ns)) ns l P := by
  refine .andThen .expect (inAngles_recites false .typeArgumentExpected filled
    (fun a mem => (each a mem).recites) (by decide) (by decide)
    fun a mem => (each a mem).starts fun k start is => ?_)
  subst is
  exact start (by decide)

theorem typeArgumentsOnLine_recites (filled : ns? ≠ some [])
    (each : ∀ ns ∈ ns?, ∀ a ∈ ns, type.ReadsBack a l) :
    (typeArgumentsOnLine type).Recites (spelledInAngles ns?) ns? l (· ≠ .lessThanToken) := by
  let value (s : Stream) : Bool := s.current.kind = .lessThanToken && !s.current.onNewLine
  have gives (o : Options) (s : State Nat) :
      (atKindOnLine .lessThanToken).Gives o s (value s.stream) s := .bind .current .pure
  cases ns? with
  | none =>
    refine .ask gives (fun s u spells ends => ?_) (.ite_neg Bool.false_ne_true .pure)
    obtain rfl := show s = u from spells
    simp [value, ends]
  | some ns =>
    refine .ask gives (fun s u spells _ => ?_) (.ite_pos rfl ?_)
    · simp [value, spells.1.kind, spells.1.line, Word.mark]
    · exact (typeArguments_recites (fun nil => filled (by rw [nil])) (each ns rfl)).map

theorem typeParameter_recites {constraint defaultType : Option Node} (name : n.IsName)
    (bound : ∀ m ∈ constraint, type.Recites m.spelled m l TypeEnds)
    (other : ∀ m ∈ defaultType, type.Recites m.spelled m l TypeEnds) :
    (typeParameter type).Recites (Node.typeParameter n constraint defaultType).spelled
      (.typeParameter n constraint defaultType) l
      fun k => k ≠ .extendsKeyword ∧ k ≠ .equalsToken ∧ TypeEnds k := by
  have read : (do
      let declared ← Grammar.name
      let constraint ← optionalAfter .extendsKeyword type
      let defaultType ← optionalAfter .equalsToken type
      return .typeParameter declared constraint defaultType : Rule Nat Node).Recites
      (Node.typeParameter n constraint defaultType).spelled
      (.typeParameter n constraint defaultType) l
      fun k => k ≠ .extendsKeyword ∧ k ≠ .equalsToken ∧ TypeEnds k := by
    refine .andThen (name_recites name) (.bind (.optionalAfter bound)
      (.mono (.last (.optionalAfter other) .pure) fun k ends => ends.2) ?_)
    cases defaultType with
    | none => exact .nil fun k ends => ⟨ends.1, ends.2.2⟩
    | some m => exact .cons ⟨by decide, by decide⟩
  obtain ⟨text, rfl, identifier⟩ := name.eq_name
  exact .current fun t here => .ite_pos (by rw [here.kind, identifier]; rfl) read

theorem typeParameters_recites (filled : ns? ≠ some [])
    (each : ∀ ns ∈ ns?, ∀ a ∈ ns, (typeParameter type).Recites a.spelled a l
      fun k => k ≠ .extendsKeyword ∧ k ≠ .equalsToken ∧ TypeEnds k)
    (differ : ∀ ns ∈ ns?, ∀ a ∈ ns, Word.Starts (· ≠ .greaterThanToken) a.spelled fun _ => True) :
    (typeParameters type).Recites (spelledInAngles ns?) ns? l (· ≠ .lessThanToken) := by
  cases ns? with
  | none => exact .last .accept_not .pure
  | some ns =>
    have list := inAngles_recites true .typeParameterExpected
      (Q := (· ≠ .lessThanToken)) (fun nil => filled (by rw [nil])) (each ns rfl) (by decide)
      (by decide) (differ ns rfl)
    exact .andThen .accept list.map

/-- Modifiers are read up to a token that they can stand before and that is none itself. -/
theorem modifiers_recites {allowed : List Kind} (modify : Modifies allowed ns?)
    (follow : ∀ k ∈ allowed, canFollowModifier k = true)
    (ends : allowed.contains .endOfFileToken = false) :
    (modifiers allowed).Recites (spelledAll? ns?) ns? l
      fun k => canFollowModifier k = true ∧ k ∉ allowed := by
  obtain ⟨ks, nodup, mem, rfl⟩ := modify
  intro o depth s u scanned spells last _
  have words : spelledAll? (if ks.isEmpty then none else some (ks.map .token)) =
      ks.map Word.mark := by
    cases ks with
    | nil => rfl
    | cons k ks =>
      show spelledAll ((k :: ks).map .token) = _
      rw [spelledAll_eq, List.flatMap_map, List.map_eq_flatMap]
      rfl
  rw [words] at spells
  have read : ModifiersRead allowed s ks u ∧ canFollowModifier s.current.kind = true := by
    clear words nodup scanned
    induction ks generalizing s with
    | nil =>
      obtain rfl := show s = u from spells
      exact ⟨.nil s, last.1⟩
    | cons k ks ih =>
      obtain ⟨here, -, behind⟩ := spells
      obtain ⟨first, mem⟩ := List.forall_mem_cons.mp mem
      obtain ⟨others, follows⟩ := ih mem behind
      have kind : s.current.kind = k := here.kind
      refine ⟨?_, kind ▸ follow k first⟩
      rw [← kind] at first ⊢
      exact .cons first follows others
  have stop : nextModifies allowed.contains u = false := by
    rw [nextModifies, Bool.and_eq_false_imp]
    exact fun found => absurd (List.contains_iff_mem.mp found) last.2
  exact modifiers_gives (s := ⟨s, depth⟩) read.1 stop nodup scanned ends

theorem parameterName_recites (h : n.IsName ∨ n = .identifier "this" none) :
    parameterName.Recites n.spelled n l P := by
  rcases h with is | rfl
  · refine .accept_other (is.starts (by decide)) (.ite_neg Bool.false_ne_true ?_)
    obtain ⟨text, rfl, identifier⟩ := is.eq_name
    exact .current fun t here => .ite_pos (by rw [here.kind, identifier]; rfl) (name_recites is)
  · exact .andThen (.accept (k := .thisKeyword)) (.ite_pos rfl .pure)

theorem starts_parameterName (h : n.IsName ∨ n = .identifier "this" none) (name : P .identifier)
    (this : P .thisKeyword) : Word.Starts P n.spelled fun _ => True := by
  rcases h with is | rfl
  · exact is.starts name
  · exact .cons this

theorem parameter_recites {modifiers : Option (List Node)} {dots question : Option Node} {t : Node}
    (modify : Modifies parameterModifiers modifiers) (mark : IsMark .dotDotDotToken dots)
    (name : n.IsName ∨ n = .identifier "this" none) (mark' : IsMark .questionToken question)
    (single : dots.isSome = true → question = none) (inner : type.Recites t.spelled t l TypeEnds) :
    (parameter type).Recites (Node.parameter modifiers dots n question t).spelled
      (.parameter modifiers dots n question t) l TypeEnds := by
  have annotated : (do
      expect .colonToken
      return .parameter modifiers dots n question (← type) : Rule Nat Node).Recites
      (.mark .colonToken :: t.spelled) (.parameter modifiers dots n question t) l TypeEnds :=
    .andThen .expect (.last inner .pure)
  have marked : ¬ (dots.isSome && question.isSome) = true := by
    intro both
    obtain ⟨first, second⟩ := Bool.and_eq_true_iff.mp both
    rw [single first] at second
    exact absurd second (by decide)
  have named := parameterName_recites (l := l) (P := fun _ => True) name
  refine .bind (modifiers_recites modify (by decide) (by decide)) (.bind (.token? mark)
    (.andThen named (.glance fun token => .bind (.token? mark') (.ite_neg marked annotated) ?_)) ?_) ?_
  · exact .cons (by decide)
  · exact (starts_parameterName name (by decide) (by decide)).front
  · exact mark.starts (by decide) (starts_parameterName name (by decide) (by decide)).front

/-- What may stand behind a parameter: behind a rest parameter only the end of the list. -/
def ParameterEnds (p : Node) (k : Kind) : Prop :=
  TypeEnds k ∧ (isRest p = true → k = .closeParenToken)

theorem listedParameter_recites (h : (parameter type).Recites n.spelled n l TypeEnds) :
    (listedParameter type).Recites n.spelled n l (ParameterEnds n) := by
  intro o depth s u scanned spells ends room
  refine .bind .current (.bind (h scanned spells ends.1 room) (.bind .atKind (.ite_neg ?_ .pure)))
  cases rest : isRest n with
  | false => exact Bool.false_ne_true
  | true => simp [ends.2 rest]

/-- Where only the last of some parameters is a rest parameter, none stands in front of another. -/
theorem isChain_of_dropLast {α : Type} {P : α → Prop} {as : List α} (h : ∀ a ∈ as.dropLast, P a) :
    as.IsChain fun a _ => P a := by
  induction as with
  | nil => exact .nil
  | cons a as ih =>
    cases as with
    | nil => exact .singleton a
    | cons b as =>
      obtain ⟨first, others⟩ := List.forall_mem_cons.mp h
      exact .cons_cons first (ih others)

theorem parameters_recites (filled : ns? ≠ some [])
    (each : ∀ ns ∈ ns?, ∀ p ∈ ns, (parameter type).Recites p.spelled p l TypeEnds)
    (differ : ∀ ns ∈ ns?, ∀ p ∈ ns, Word.Starts (· ≠ .closeParenToken) p.spelled fun _ => True)
    (rest_last : ∀ ns ∈ ns?, ∀ p ∈ ns.dropLast, isRest p = false) :
    (parameters type).Recites (spelledInParens ns?) ns? l P := by
  match ns?, filled with
  | none, _ => exact .andThen .expect (.andThen .accept (.ite_pos rfl .pure))
  | some (p :: ps), _ =>
    obtain ⟨first, others⟩ := List.forall_mem_cons.mp (each _ rfl)
    obtain ⟨differs, differ⟩ := List.forall_mem_cons.mp (differ _ rfl)
    have chain := isChain_of_dropLast (rest_last _ rfl)
    have last (q : Node) : ParameterEnds q .closeParenToken := ⟨by decide, fun _ => rfl⟩
    have comma {q : Node} (h : isRest q = false) : ParameterEnds q .commaToken :=
      ⟨by decide, fun rest => absurd (h.symm.trans rest) (by decide)⟩
    have tail : (many (furtherParameter type)).Recites
        (ps.flatMap fun q => .mark .commaToken :: q.spelled) ps l (· = .closeParenToken) := by
      refine .many (P := ParameterEnds) ?_ (fun _ _ => List.cons_ne_nil _ _) ?_
        (fun q _ k is => is ▸ last q) ?_
      · intro q mem
        have item : (do
            if ← atKind .closeParenToken then return none
            else some <$> listedParameter type : Rule Nat (Option Node)).Recites q.spelled (some q) l
            (ParameterEnds q) :=
          .atKind_other ((differ q mem).weaken fun _ _ => trivial)
            (.ite_neg Bool.false_ne_true (listedParameter_recites (others q mem)).map)
        exact .atKind_other (.cons (by decide)) (.ite_neg Bool.false_ne_true (.andThen .expect item))
      · exact chain.tail.imp fun _ _ h => .cons (comma h)
      · exact .atKind (.nil fun _ is => is) (.ite_pos rfl .pure)
    have close : Recites (do
        expect .closeParenToken
        return some (p :: ps)) [.mark .closeParenToken] (some (p :: ps)) l P := .last .expect .pure
    have list : (do
        let first ← listedParameter type
        let others ← many (furtherParameter type)
        expect .closeParenToken
        return some (first :: others) : Rule Nat (Option (List Node))).Recites
        (p.spelled ++ (ps.flatMap (fun q => .mark .commaToken :: q.spelled) ++
          [.mark .closeParenToken])) (some (p :: ps)) l P := by
      refine .bind (listedParameter_recites first) (.bind tail close (.cons rfl)) ?_
      cases ps with
      | nil => exact .cons (last p)
      | cons q ps => exact .cons (comma (List.isChain_cons_cons.mp chain).1)
    rw [spelledInParens, spelledList_cons, List.append_assoc]
    exact .andThen .expect (.accept_other differs.front (.ite_neg Bool.false_ne_true list))

theorem predicateSubject_recites (h : n.IsName ∨ n = .thisType) :
    predicateSubject.Recites n.spelled n l P := by
  rcases h with is | rfl
  · exact .accept_other (is.starts (by decide)) (.ite_neg Bool.false_ne_true (name_recites is))
  · exact .andThen (.accept (k := .thisKeyword)) (.ite_pos rfl .pure)

/-- The only word of a subject is one of a subject. -/
theorem subject_spelled (h : n.IsName ∨ n = .thisType) :
    ∃ w, n.spelled = [w] ∧ isSubject w.kind = true ∧ w.kind ≠ .assertsKeyword := by
  rcases h with is | rfl
  · obtain ⟨text, rfl, identifier⟩ := is.eq_name
    exact ⟨_, rfl, by rw [identifier]; decide, by rw [identifier]; decide⟩
  · exact ⟨_, rfl, by decide, by decide⟩

theorem isMemberName_of_isSubject {k : Kind} (h : isSubject k = true) : k.isMemberName = true := by
  rcases (Bool.or_eq_true _ _).mp h with is | is
  · exact Kind.isMemberName_of_isName is
  · obtain rfl := of_decide_eq_true is
    rfl

theorem resultType_recites (h : type.ReadsBack n l) :
    (resultType type).Recites n.spelled n l TypeEnds := by
  have read := h.recites
  obtain ⟨w, ws, opening⟩ := h.opening
  rw [opening.spelled_eq] at read ⊢
  have no_assertion : w.kind ≠ .assertsKeyword := fun is => opening.opens.start (is ▸ by decide)
  have no_predicate (subject : isSubject w.kind = true) : Word.Starts (· ≠ .isKeyword) ws TypeEnds := by
    cases ws with
    | nil => exact .nil fun k ends is => ends (is ▸ by decide)
    | cons v ws =>
      have second := opening.opens.second (isMemberName_of_isSubject subject) v rfl
      exact .cons fun is => second (is ▸ by decide)
  refine .ask atAssertion_gives (fun s u spells _ => ?_) (.ite_neg Bool.false_ne_true
    (.ask atPredicate_gives (fun s u spells ends => ?_) (.ite_neg Bool.false_ne_true read)))
  · rw [nextAsserts, spells.1.kind, decide_eq_false no_assertion, Bool.false_and]
  · rw [nextPredicates, spells.1.kind, Bool.and_eq_false_imp]
    intro subject
    rw [decide_eq_false ((no_predicate subject).current spells.2.2 ends), Bool.false_and]

theorem resultType_recites_predicate {t : Node} (about : n.IsName ∨ n = .thisType)
    (inner : type.Recites t.spelled t l TypeEnds) :
    (resultType type).Recites (Node.typePredicate none n (some t)).spelled
      (.typePredicate none n (some t)) l TypeEnds := by
  have read : (do
      let subject ← predicateSubject
      expect .isKeyword
      return .typePredicate none subject (some (← type)) : Rule Nat Node).Recites
      (n.spelled ++ .mark .isKeyword :: t.spelled) (.typePredicate none n (some t)) l TypeEnds :=
    .andThen (predicateSubject_recites about) (.andThen .expect (.last inner .pure))
  obtain ⟨w, eq, subject, other⟩ := subject_spelled about
  simp only [spelled, spelled?, spelledBehind, List.nil_append]
  rw [eq] at read ⊢
  refine .ask atAssertion_gives (fun s u spells _ => ?_) (.ite_neg Bool.false_ne_true
    (.ask atPredicate_gives (fun s u spells _ => ?_) (.ite_pos rfl read)))
  · rw [nextAsserts, spells.1.kind, decide_eq_false other, Bool.false_and]
  · obtain ⟨first, -, second, -⟩ := spells
    simp [nextPredicates, first.kind, subject, second.kind, second.line, Word.mark]

theorem resultType_recites_assertion (about : n.IsName ∨ n = .thisType)
    (inner : ∀ t ∈ m, type.Recites t.spelled t l TypeEnds) :
    (resultType type).Recites (Node.typePredicate (some (.token .assertsKeyword)) n m).spelled
      (.typePredicate (some (.token .assertsKeyword)) n m) l TypeEnds := by
  have read : (do
      advance
      let subject ← predicateSubject
      return .typePredicate (some (.token .assertsKeyword)) subject
        (← optionalAfter .isKeyword type) : Rule Nat Node).Recites
      (.mark .assertsKeyword :: (n.spelled ++ spelledBehind .isKeyword m))
      (.typePredicate (some (.token .assertsKeyword)) n m) l TypeEnds := by
    refine .andThen .advance (.andThen (predicateSubject_recites about) (.last (.mono
      (.optionalAfter inner) fun k ends => ⟨fun is => ends (is ▸ by decide), ends⟩) .pure))
  obtain ⟨w, eq, subject, other⟩ := subject_spelled about
  simp only [spelled, spelled?]
  rw [eq] at read ⊢
  refine .ask atAssertion_gives (fun s u spells _ => ?_) (.ite_pos rfl read)
  obtain ⟨first, -, second, -⟩ := spells
  simp [nextAsserts, first.kind, second.kind, subject, second.line, Word.mark]

/-- The parts of a signature are read back. -/
structure ReadsSignature (type : Rule Nat Node) (typeParameters? parameters? : Option (List Node))
    (result : Node) (levels : Nat) : Prop where
  ofTypeParameters : (typeParameters type).Recites (spelledInAngles typeParameters?)
    typeParameters? levels (· ≠ .lessThanToken)
  ofParameters : (parameters type).Recites (spelledInParens parameters?) parameters? levels
    fun _ => True
  ofResult : (resultType type).Recites result.spelled result levels TypeEnds

theorem ReadsSignature.deeper {tps ps : Option (List Node)} {l' : Nat}
    (h : ReadsSignature type tps ps n l) (le : l ≤ l') : ReadsSignature type tps ps n l' :=
  ⟨h.ofTypeParameters.deeper le, h.ofParameters.deeper le, h.ofResult.deeper le⟩

/-- Parameters stand behind type parameters, and a mark and what the call gives behind these. -/
theorem ReadsSignature.recites {tps ps : Option (List Node)} {k : Kind} {result : Rule Nat Node}
    {vs : List Word} {f : Option (List Node) → Option (List Node) → Node → Rule Nat Node} {b : Node}
    (h : ReadsSignature type tps ps n l) (marked : result = do expect k; resultType type)
    (others : (f tps ps n).Recites vs b l Q) (apart : Word.Starts TypeEnds vs Q) :
    (do
      let tps ← typeParameters type
      let ps ← parameters type
      let n ← result
      f tps ps n : Rule Nat Node).Recites
      (spelledInAngles tps ++ (spelledInParens ps ++ .mark k :: (n.spelled ++ vs))) b l Q := by
  have gives : result.Recites (.mark k :: n.spelled) n l TypeEnds :=
    marked ▸ .andThen .expect h.ofResult
  refine .bind h.ofTypeParameters (.andThen h.ofParameters (.bind gives others apart)) ?_
  cases ps with
  | none => exact .cons (by decide)
  | some ps => exact .cons (by decide)

end Grammar

end Ambient

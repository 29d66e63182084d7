import Ambient.Proofs.Grammar.Type
import Ambient.Proofs.Pairing.Choice
import Ambient.Proofs.Pairing.Signature

namespace Ambient

namespace Grammar

open Rule Follows

set_option synthInstance.maxSize 1000

variable {P : Pairing} [laws : P.Lawful] {p q : Closeness}

section

variable {type type' : Rule Nat Node} [h : Follows P .met .met type type']

instance : Follows P .met .passed memberEnd memberEnd := by
  unfold memberEnd
  infer_instance

instance : Follows P .met .passed (indexMember type) (indexMember type') := by
  unfold indexMember
  infer_instance

instance : Follows P .met .passed (callSignature type) (callSignature type') := by
  unfold callSignature
  infer_instance

instance : Follows P .met .passed (constructSignature type) (constructSignature type') := by
  unfold constructSignature
  infer_instance

instance : Follows P .abreast .passed (propertySignature type) (propertySignature type') := by
  unfold propertySignature
  infer_instance

instance : Follows P .abreast .passed (methodSignature type) (methodSignature type') := by
  unfold methodSignature
  infer_instance

instance : Follows P .abreast .passed (constructorMember type) (constructorMember type') := by
  unfold constructorMember
  infer_instance

instance : Follows P .abreast .passed (classIndexMember type) (classIndexMember type') := by
  unfold classIndexMember
  infer_instance

instance : Follows P .abreast .passed (propertyMember type) (propertyMember type') :=
  bind_of documentationHere fun comment => next fun ms => next fun declared => next fun question =>
    ite_of (by cases question <;> rfl) inferInstance inferInstance

instance : Follows P .abreast .passed (methodMember type) (methodMember type') := by
  unfold methodMember
  infer_instance

omit laws h in
theorem propertyName_word {comment : Option String} {o : Options} {s t : State Nat} {n : Node}
    (word : s.stream.current.kind.isMemberName = true) (h : (propertyName comment).Gives o s n t) :
    t = s.next := by
  have named : (propertyName comment).Gives o s (.identifier s.stream.current.value comment)
      s.next :=
    .bind .current (.ite_pos word (.bind .current (.ite_pos word (.bind .advance .pure))))
  cases named.symm.trans h
  rfl

omit laws h in
theorem documentationHere_still {comment : Option String} {o : Options} {s t : State Nat}
    (h : documentationHere.Gives o s comment t) : s = t := by
  cases h
  rfl

omit laws h in
theorem token?_other {k : Kind} {x : Option Node} {o : Options} {s t : State Nat}
    (other : s.stream.current.kind ≠ k) (h : (token? k).Gives o s x t) : x = none ∧ s = t := by
  cases (Gives.token?_not other).symm.trans h
  exact ⟨rfl, rfl⟩

omit laws h in
theorem expect_gives {k : Kind} {x : Unit} {o : Options} {s t : State Nat}
    (h : (expect k).Gives o s x t) : s.stream.current.kind = k ∧ t = s.next := by
  by_cases is : s.stream.current.kind = k
  · cases (Gives.expect is).symm.trans h
    exact ⟨is, rfl⟩
  · obtain ⟨e, u, refused⟩ := Refuses.expect (o := o) is
    cases refused.symm.trans h

omit h in
/-- Where a method named `new` is read, a signature of a constructor can be read. -/
theorem constructSignature_settles [Balanced type] [Balanced type'] :
    P.Settles .abreast (fun _ => False) (constructSignature type, constructSignature type')
      (methodSignature type, methodSignature type') := by
  intro s s' n t n' t' b u stands refuses gives _ construct
  obtain ⟨_, s1', h1', construct⟩ := construct.of_bind
  obtain ⟨is', rfl⟩ := expect_gives h1'
  obtain ⟨tps', s2', h2', construct⟩ := construct.of_bind
  obtain ⟨ps', s3', h3', -⟩ := construct.of_bind
  have is : s.stream.current.kind = .newKeyword := (laws.like stands.meet).kind.trans is'
  have inside : P.Stands .inside s s' := ⟨stands.depth, stands.meet, by rw [is]; decide⟩
  have bracket : s.next.stream.current.kind = .lessThanToken ∨
      s.next.stream.current.kind = .openParenToken := by
    have read := leads_of_gives h2'
    have read' := leads_of_gives h3'
    have bracket := signature_starts read read'
    rwa [← inside.next.kind_iff (by decide) (by decide),
      ← inside.next.kind_iff (by decide) (by decide)] at bracket
  -- the method has the same type parameters, parameters and result
  obtain ⟨comment, s0, h0, gives⟩ := gives.of_bind
  obtain rfl := documentationHere_still h0
  obtain ⟨declared, s1, h1, gives⟩ := gives.of_bind
  obtain rfl := propertyName_word (by rw [is]; decide) h1
  obtain ⟨question, s2, h2, gives⟩ := gives.of_bind
  obtain ⟨rfl, rfl⟩ := token?_other (by rcases bracket with is | is <;> rw [is] <;> decide) h2
  obtain ⟨tps, s3, h3, gives⟩ := gives.of_bind
  obtain ⟨ps, s4, h4, gives⟩ := gives.of_bind
  obtain ⟨result, s5, h5, gives⟩ := gives.of_bind
  obtain ⟨_, s6, h6, gives⟩ := gives.of_bind
  have construct : (constructSignature type).Gives P.left s (.constructSignature tps ps result) s6 :=
    .bind (.expect is) (.bind h3 (.bind h4 (.bind h5 (.bind h6 .pure))))
  obtain ⟨e, v, refused⟩ := refuses
  cases construct.symm.trans refused

/-- Where a method named `constructor` is read, a constructor can be read. -/
theorem constructorMember_settles [Balanced type] [Balanced type'] :
    P.Settles .abreast (fun _ => False) (constructorMember type, constructorMember type')
      (methodMember type, methodMember type') := by
  intro s s' n t n' t' b u stands refuses gives _ construct
  obtain ⟨comment', s0', h0', construct⟩ := construct.of_bind
  obtain rfl := documentationHere_still h0'
  obtain ⟨ms', s1', h1', construct⟩ := construct.of_bind
  obtain ⟨_, s2', h2', construct⟩ := construct.of_bind
  obtain ⟨is', rfl⟩ := expect_gives h2'
  obtain ⟨ps', s3', h3', construct⟩ := construct.of_bind
  obtain ⟨_, s4', h4', -⟩ := construct.of_bind
  -- behind the modifiers both parses have come to `constructor` and its parameters
  obtain ⟨comment, s0, h0, gives⟩ := gives.of_bind
  obtain rfl := documentationHere_still h0
  obtain ⟨ms, s1, h1, gives⟩ := gives.of_bind
  have modifiers : Follows P .met .met (modifiers classMemberModifiers)
    (modifiers classMemberModifiers) := inferInstance
  obtain ⟨_, _, h, -, behind, -⟩ := modifiers.gives stands.within h1
  cases h.symm.trans h1'
  have is := (behind.kind_iff (k := .constructorKeyword) (by decide) (by decide)).mpr is'
  have inside := behind.inside (by rw [is]; decide)
  have read := leads_of_gives h3'
  have bracket := parameters_starts read
  rw [← inside.next.kind_iff (by decide) (by decide)] at bracket
  -- so the method has the parameters of the constructor
  obtain ⟨declared, s2, h2, gives⟩ := gives.of_bind
  obtain rfl := propertyName_word (by rw [is]; decide) h2
  obtain ⟨question, s3, h3, gives⟩ := gives.of_bind
  obtain ⟨rfl, rfl⟩ := token?_other (by rw [bracket]; decide) h3
  obtain ⟨tps, s4, h4, gives⟩ := gives.of_bind
  obtain rfl : s1.next = s4 := congrArg Prod.snd
    ((Gives.optionalAfter_not (by rw [bracket]; decide)).symm.trans h4)
  obtain ⟨ps, s5, h5, gives⟩ := gives.of_bind
  have parameters : Follows P .met .met (parameters type) (parameters type') := inferInstance
  obtain ⟨_, _, h, -, after, -⟩ := parameters.gives inside.next h5
  cases h.symm.trans h3'
  -- the colon behind them is on a new line, or the constructor would not have ended there
  obtain ⟨result, s6, h6, -⟩ := gives.of_bind
  obtain ⟨_, s7, h7, -⟩ := h6.of_bind
  obtain ⟨colon, -⟩ := expect_gives h7
  have after' := after.inside (by rw [colon]; decide)
  have like := laws.like after'.meet.1
  have colon' := like.kind.symm.trans colon
  have line' : s3'.stream.current.onNewLine = true :=
    (h4'.of_semicolon (by rw [colon']; decide) (by rw [colon']; decide) (by rw [colon']; decide)).1
  have line : s5.stream.current.onNewLine = true := by
    rcases like.onNewLine with eq | ⟨-, -, starts⟩
    · rw [eq, line']
    · exact absurd (by rw [colon]; decide) starts
  have ends : Rule.semicolon.Gives P.left s5 () s5 :=
    .semicolon_of_line (by rw [colon]; decide) line
  have constructor : (constructorMember type).Gives P.left s
      (.constructorDeclaration comment ms ps) s5 :=
    .bind h0 (.bind h1 (.bind (.expect is) (.bind h5 (.bind ends .pure))))
  obtain ⟨e, v, refused⟩ := refuses
  cases constructor.symm.trans refused

instance [Balanced type] [Balanced type'] :
    Follows P .abreast .passed (typeMember type) (typeMember type') := by
  let table : List ((Rule Nat Node × Rule Nat Node) × MemberForm) := [
    ((indexMember type, indexMember type'), .index),
    ((callSignature type, callSignature type'), .call),
    ((constructSignature type, constructSignature type'), .method),
    ((propertySignature type, propertySignature type'), .value),
    ((methodSignature type, methodSignature type'), .method)]
  have settle : (table.map Prod.fst).Pairwise (P.Settles .abreast fun _ => False) := by
    refine Pairing.settles_of_table table (fun form s => ∃ v, MemberAt form s v) (· ≠ ·) ?_ ?_ ?_
    · rintro form form' s differ ⟨v, h⟩ ⟨v', h'⟩
      exact differ (h.unique h').2
    · simp only [table, List.forall_mem_cons, List.not_mem_nil, false_imp_iff, implies_true, and_true]
      refine ⟨⟨inferInstance, fun h => ?_⟩, ⟨inferInstance, fun h => ?_⟩,
        ⟨inferInstance, fun h => ?_⟩, ⟨inferInstance, fun h => ?_⟩, ⟨inferInstance, fun h => ?_⟩⟩
      · obtain ⟨v, here, -⟩ := indexMember_at h
        exact ⟨v, here⟩
      · exact ⟨_, callSignature_at h⟩
      · exact ⟨_, (constructSignature_at h).1⟩
      · exact propertySignature_at h
      · exact ⟨_, (methodSignature_at h).1⟩
    · simp [table, constructSignature_settles]
  have each : ∀ e ∈ table.map Prod.fst, Follows P .abreast .passed e.1 e.2 := by
    simp only [table, List.map_cons, List.map_nil, List.forall_mem_cons, List.not_mem_nil,
      false_imp_iff, implies_true, and_true]
    refine ⟨?_, ?_, ?_, ?_, ?_⟩ <;> infer_instance
  have balanced : ∀ e ∈ table.map Prod.fst, Balanced e.1 ∧ Balanced e.2 := by
    simp only [table, List.map_cons, List.map_nil, List.forall_mem_cons, List.not_mem_nil,
      false_imp_iff, implies_true, and_true]
    refine ⟨⟨?_, ?_⟩, ⟨?_, ?_⟩, ⟨?_, ?_⟩, ⟨?_, ?_⟩, ⟨?_, ?_⟩⟩ <;> infer_instance
  exact bind_of (follows_refuseModifier _) fun _ => alternatives inferInstance balanced each settle

instance [Balanced type] [Balanced type'] :
    Follows P .abreast .passed (classMember type) (classMember type') := by
  let table : List ((Rule Nat Node × Rule Nat Node) × MemberForm) := [
    ((constructorMember type, constructorMember type'), .method),
    ((classIndexMember type, classIndexMember type'), .index),
    ((propertyMember type, propertyMember type'), .value),
    ((methodMember type, methodMember type'), .method)]
  have settle : (table.map Prod.fst).Pairwise (P.Settles .abreast fun _ => False) := by
    refine Pairing.settles_of_table table (fun form s => ∃ v, MemberAt form s v) (· ≠ ·) ?_ ?_ ?_
    · rintro form form' s differ ⟨v, h⟩ ⟨v', h'⟩
      exact differ (h.unique h').2
    · simp only [table, List.forall_mem_cons, List.not_mem_nil, false_imp_iff, implies_true, and_true]
      refine ⟨⟨inferInstance, fun h => ?_⟩, ⟨inferInstance, fun h => ?_⟩,
        ⟨inferInstance, fun h => ?_⟩, ⟨inferInstance, fun h => ?_⟩⟩
      · obtain ⟨v, here, -⟩ := constructorMember_at h
        exact ⟨v, here⟩
      · exact classIndexMember_at h
      · exact propertyMember_at h
      · obtain ⟨v, here, -⟩ := methodMember_at h
        exact ⟨v, here⟩
    · simp [table, constructorMember_settles]
  have each : ∀ e ∈ table.map Prod.fst, Follows P .abreast .passed e.1 e.2 := by
    simp only [table, List.map_cons, List.map_nil, List.forall_mem_cons, List.not_mem_nil,
      false_imp_iff, implies_true, and_true]
    refine ⟨?_, ?_, ?_, ?_⟩ <;> infer_instance
  have balanced : ∀ e ∈ table.map Prod.fst, Balanced e.1 ∧ Balanced e.2 := by
    simp only [table, List.map_cons, List.map_nil, List.forall_mem_cons, List.not_mem_nil,
      false_imp_iff, implies_true, and_true]
    refine ⟨⟨?_, ?_⟩, ⟨?_, ?_⟩, ⟨?_, ?_⟩, ⟨?_, ?_⟩⟩ <;> infer_instance
  exact alternatives inferInstance balanced each settle

end

/-- A rule that the grammar takes for types. -/
class TypeRule (type : Rule Nat Node) : Prop where
  is : IsTypeRule type

instance : TypeRule Grammar.type := ⟨.inl rfl⟩

instance (budget : Budget) : TypeRule (typeWithin budget) := ⟨.inr ⟨budget, rfl⟩⟩

omit laws in
theorem consumes_of_reads {r r' : Rule Nat Node} [Balanced r] {extra : Nat} {t : Target}
    (reads : r.Reads extra t) [laws : P.Lawful] : Consumes P .inside r r' :=
  ⟨fun stands h => ((reads (leads_of_gives h)).nearer (laws.scanned stands.meet.1)).2⟩

section

variable {type type' : Rule Nat Node} [isType : TypeRule type] [isType' : TypeRule type']

instance : Balanced type := isType.is.balanced

omit laws in
theorem TypeRule.reads : type.Reads 1 (.category .type) := by
  rcases isType.is with rfl | ⟨budget, rfl⟩
  · exact type_reads
  · exact typeWithin_reads budget

/-- The items of a block of members follow those of another one if the members do. -/
theorem item_of_follows {r r' : Rule Nat Node} [h : Follows P .abreast .passed r r']
    (eats : Consumes P .inside r r') (ends : Kind → Bool) (last : ends .endOfFileToken = true) :
    BlockItem P P.Over (BlockItem.itemUnless ends r) (BlockItem.itemUnless ends r') := by
  refine .of_itemUnless last id Pairing.not_over .inl ?_ eats ?_
  · intro s s' n t stands read
    obtain ⟨n', t', read', eq, after, le⟩ := h.gives stands.within read
    exact after.of_passed.imp_right fun abreast => ⟨n', t', read', eq, abreast.within, le⟩
  · intro faithful s s' e t stands read
    exact h.fails faithful stands.within read

variable [h : Follows P .met .met type type']

instance : Follows P .met .met (typeMembers type) (typeMembers type') := by
  have items : BlockItem P P.Over
      (do if ← atBlockEnd then return none else some <$> typeMember type)
      (do if ← atBlockEnd then return none else some <$> typeMember type') :=
    item_of_follows (consumes_of_reads (typeMember_reads isType.reads))
      (fun k => k = .closeBraceToken || k = .endOfFileToken) rfl
  exact next fun _ => items.closed

instance : Follows P .met .met (classMembers type) (classMembers type') := by
  have items : BlockItem P P.Over
      (do if ← atBlockEnd then return none else some <$> classMember type)
      (do if ← atBlockEnd then return none else some <$> classMember type') :=
    item_of_follows (consumes_of_reads (classMember_reads isType.reads))
      (fun k => k = .closeBraceToken || k = .endOfFileToken) rfl
  exact next fun _ => (items.skip fun ended => by rw [ended.kind]; decide).closed

end

end Grammar

end Ambient

import Ambient.Proofs.Spelling.Member

namespace Ambient

namespace Grammar

open Rule Node

variable {type : Rule Nat Node} {n t : Node} {m question : Option Node} {ns : List Node}
variable {ns? : Option (List Node)} {l : Nat} {w : Word} {ws : List Word} {P Q : Kind → Prop}

/-- A type in front of brackets or an operator ends in front of a token of kind `k`. -/
abbrev PrimaryEnds (k : Kind) : Prop := k ≠ .dotToken ∧ k ≠ .lessThanToken

/-- The kind of the first token tells which rule reads a type. -/
theorem primaryType_recites {r : Rule Nat Node} (eq : primaryTypeAt type w.kind = r)
    (h : r.Recites (w :: ws) n l P) : (primaryType type).Recites (w :: ws) n l P := by
  refine .current (f := fun t => primaryTypeAt type t.kind) fun t here => ?_
  rwa [here.kind, eq]

/-- Whether the token behind the current one is of kind `k`. -/
def secondIs (k : Kind) (s : Stream) : Bool := s.next.current.kind = k

theorem nextIs_gives {k : Kind} (o : Options) (s : State Nat) :
    (nextIs k).Gives o s (secondIs k s.stream) s := by
  have ahead : (do
      advance
      atKind k : Rule Nat Bool).Gives o s (secondIs k s.stream) s.next := .bind .advance .atKind
  have back : (nextIs k).Gives o s (secondIs k s.stream) ⟨s.stream, s.next.depth⟩ := .lookAhead ahead
  exact back

theorem keywordType_recites {k : Kind} (is : k.isKeywordType = true) :
    (primaryType type).Recites (Node.keywordType k).spelled (.keywordType k) l (· ≠ .dotToken) := by
  refine primaryType_recites rfl (.ask nextIs_gives (fun s u spells ends => ?_)
    (.ite_pos (c := (k.isKeywordType && !false) = true) (by rw [is]; rfl) (.andThen .advance .pure)))
  obtain ⟨-, -, rfl⟩ := spells
  exact decide_eq_false ends

theorem thisType_recites : (primaryType type).Recites thisType.spelled .thisType l P :=
  primaryType_recites (r := do advance; return .thisType) rfl (.andThen .advance .pure)

theorem booleanType_recites {k : Kind} (is : k = .trueKeyword ∨ k = .falseKeyword) :
    (primaryType type).Recites (Node.literalType (.token k)).spelled (.literalType (.token k)) l P := by
  have read : literalType.Recites (Node.literalType (.token k)).spelled (.literalType (.token k)) l
      P := by
    refine .current fun t here => ?_
    have kind : t.kind = k := here.kind
    rw [kind]
    exact .ite_pos (by simpa using is) (.andThen .advance .pure)
  rcases is with rfl | rfl
  all_goals exact primaryType_recites rfl read

theorem literalType_recites (is : n.IsLiteral) :
    (primaryType type).Recites (Node.literalType n).spelled (.literalType n) l P := by
  have read := literal?_recites (l := l) (P := P) is
  rcases is with ⟨text, -, rfl⟩ | ⟨text, -, rfl⟩
  all_goals
    refine primaryType_recites (r := literalType) rfl
      (.current fun t here => .ite_neg ?_ (read.last .pure))
    rw [here.kind]
    exact Bool.false_ne_true

theorem starts_inAngles (less : P .lessThanToken) (ends : ∀ k, Q k → P k) :
    Word.Starts P (spelledInAngles ns?) Q := by
  cases ns? with
  | none => exact .nil ends
  | some ns => exact .cons less

theorem typeReference_recites (name : n.IsEntityName) (room : n.openLevels ≤ l)
    (filled : ns? ≠ some []) (each : ∀ ns ∈ ns?, ∀ a ∈ ns, type.ReadsBack a l) :
    (primaryType type).Recites (Node.typeReference n ns?).spelled (.typeReference n ns?) l
      PrimaryEnds := by
  have read : (typeReference type).Recites (n.spelled ++ spelledInAngles ns?) (.typeReference n ns?) l
      PrimaryEnds :=
    .bind (entityName_recites name room)
      (.last (.mono (typeArgumentsOnLine_recites filled each) fun k ends => ends.2) .pure)
      (starts_inAngles (by decide) fun k ends => ends.1)
  obtain ⟨w, ws, eq, identifier, -⟩ := name.spelled_eq
  rw [eq] at read
  rw [spelled, eq]
  exact primaryType_recites (r := typeReference type) (by rw [identifier]; rfl) read

theorem typeQuery_recites (name : n.IsEntityName) (room : n.openLevels ≤ l) (filled : ns? ≠ some [])
    (each : ∀ ns ∈ ns?, ∀ a ∈ ns, type.ReadsBack a l) :
    (primaryType type).Recites (Node.typeQuery n ns?).spelled (.typeQuery n ns?) l PrimaryEnds :=
  primaryType_recites rfl (.andThen .expect (.bind (entityName_recites name room)
    (.last (.mono (typeArgumentsOnLine_recites filled each) fun k ends => ends.2) .pure)
    (starts_inAngles (by decide) fun k ends => ends.1)))

theorem functionType_recites {tps ps : Option (List Node)} (signature : ReadsSignature type tps ps t l) :
    (functionType type).Recites (Node.functionType tps ps t).spelled (.functionType tps ps t) l
      TypeEnds := by
  have read := signature.recites (k := .equalsGreaterThanToken) (Q := TypeEnds) rfl
    (f := fun tps ps t => Pure.pure (.functionType tps ps t)) .pure (.nil fun k ends => ends)
  rwa [List.append_nil] at read

theorem constructorType_recites {tps ps : Option (List Node)}
    (abstract : Modifies [.abstractKeyword] ns?)
    (signature : ReadsSignature type tps ps t l) :
    (primaryType type).Recites (Node.constructorType ns? tps ps t).spelled
      (.constructorType ns? tps ps t) l TypeEnds := by
  have call (mark : Option Node) : Recites (do
      expect .newKeyword
      let tps ← typeParameters type
      let ps ← parameters type
      return .constructorType (mark.map ([·])) tps ps (← arrowResult type) : Rule Nat Node)
      (.mark .newKeyword :: (spelledInAngles tps ++ (spelledInParens ps ++
        .mark .equalsGreaterThanToken :: (t.spelled ++ []))))
      (.constructorType (mark.map ([·])) tps ps t) l TypeEnds :=
    .andThen .expect (signature.recites rfl
      (f := fun tps ps t => Pure.pure (.constructorType (mark.map ([·])) tps ps t)) .pure
      (.nil fun k ends => ends))
  simp only [List.append_nil] at call
  rcases abstract.single with rfl | rfl
  · refine primaryType_recites (r := constructorType type) rfl ?_
    have no_mark : (token? .abstractKeyword).Recites [] none l (· ≠ .abstractKeyword) :=
      .token? fun _ mem => absurd mem (Option.not_mem_none _)
    exact no_mark.bind (call none) (.cons (by decide))
  · have read : (constructorType type).Recites _ _ l TypeEnds :=
      .bind (.token? (m := some (.token .abstractKeyword)) fun n mem => (Option.some.inj mem).symm)
        (call (some (.token .abstractKeyword))) (.cons (by decide))
    have follows : primaryTypeAt type .abstractKeyword = (do
      if ← nextIs .newKeyword then constructorType type
      else wordType type .abstractKeyword : Rule Nat Node) := rfl
    refine primaryType_recites follows (.ask nextIs_gives (fun s u spells _ => ?_) (.ite_pos rfl read))
    exact decide_eq_true spells.2.2.1.kind

/-- Where a function type and a type in parentheses are tried, the one that is read back succeeds. -/
theorem parenthesis_recites [Balanced type] (isType : IsTypeRule type) {r : Rule Nat Node}
    (mem : r ∈ [functionType type, parenthesizedType type])
    (read : r.Recites (.mark .openParenToken :: ws) n l P) :
    (primaryType type).Recites (.mark .openParenToken :: ws) n l P := by
  refine primaryType_recites rfl fun o depth s u scanned spells ends room => ?_
  have exclude : Coincide (fun _ _ => False) o ⟨s, depth⟩ (functionType type) (parenthesizedType type) :=
    .of_leads (functionType_not_parenthesizedType isType.stuck)
  exact .alternatives_of_coincide (balanced_parenthesisRules type) (List.pairwise_pair.mpr exclude) mem
    (read scanned spells ends room) fun _ related => related

theorem function_recites [Balanced type] (isType : IsTypeRule type) {tps ps : Option (List Node)}
    (signature : ReadsSignature type tps ps t l) :
    (primaryType type).Recites (Node.functionType tps ps t).spelled (.functionType tps ps t) l
      TypeEnds := by
  have read := functionType_recites signature
  cases tps with
  | some tps => exact primaryType_recites rfl read
  | none =>
    cases ps with
    | none | some ps => exact parenthesis_recites isType List.mem_cons_self read

theorem parenthesizedType_recites [Balanced type] (isType : IsTypeRule type)
    (inner : type.Recites n.spelled n l TypeEnds) :
    (primaryType type).Recites (Node.parenthesizedType n).spelled (.parenthesizedType n) l P :=
  parenthesis_recites isType (List.mem_cons_of_mem _ List.mem_cons_self)
    (.andThen .expect (.bind inner (.last .expect .pure) (.cons (by decide))))

/-- The place behind a token of kind `k`, if there is one. -/
def past (k : Kind) (s : Stream) : Stream := if s.current.kind = k then s.next else s

theorem past_pos {k : Kind} {s : Stream} (is : s.current.kind = k) : past k s = s.next := if_pos is

theorem past_neg {k : Kind} {s : Stream} (is_not : s.current.kind ≠ k) : past k s = s := if_neg is_not

theorem accept_past (k : Kind) (o : Options) (s : State Nat) :
    ∃ b, (accept k).Gives o s b ⟨past k s.stream, s.depth⟩ := by
  by_cases is : s.stream.current.kind = k
  · rw [past_pos is]
    exact ⟨true, .accept is⟩
  · rw [past_neg is]
    exact ⟨false, .accept_not is⟩

/-- Past a mark that may be there the words go on. -/
theorem past_spells {k : Kind} {s u : Stream} (mark : IsMark k m) (other : w.kind ≠ k)
    (spells : s.Spells (spelled? m ++ w :: ws) u) : (past k s).Spells (w :: ws) u := by
  cases m with
  | none =>
    have here : s.Spells (w :: ws) u := spells
    rwa [past_neg (here.1.kind ▸ other)]
  | some n =>
    obtain rfl := mark n rfl
    obtain ⟨first, -, here⟩ := spells
    have is : s.current.kind = k := first.kind
    rwa [past_pos is]

/-- Whether an element of a tuple that starts here has a label. -/
def opensLabel (s : Stream) : Bool :=
  (past .dotDotDotToken s).current.kind.isMemberName &&
    (past .questionToken (past .dotDotDotToken s).next).current.kind = .colonToken

theorem atLabel_gives (o : Options) (s : State Nat) : atLabel.Gives o s (opensLabel s.stream) s := by
  obtain ⟨_, dots⟩ := accept_past .dotDotDotToken o s
  obtain ⟨_, question⟩ := accept_past .questionToken o ⟨(past .dotDotDotToken s.stream).next, s.depth⟩
  unfold opensLabel
  by_cases word : (past .dotDotDotToken s.stream).current.kind.isMemberName = true
  · have looked : atLabel.Gives o s _ ⟨s.stream, s.depth⟩ :=
      .lookAhead (t := ⟨past .questionToken (past .dotDotDotToken s.stream).next, s.depth⟩)
        (.bind dots (.bind .current (.ite_pos word (.bind .advance (.bind question .atKind)))))
    rw [word, Bool.true_and]
    exact looked
  · have looked : atLabel.Gives o s _ ⟨s.stream, s.depth⟩ :=
      .lookAhead (t := ⟨past .dotDotDotToken s.stream, s.depth⟩)
        (.bind dots (.bind .current (.ite_neg word .pure)))
    rw [Bool.eq_false_iff.mpr word, Bool.false_and]
    exact looked

/-- An element of a tuple ends in front of a token of kind `k`. -/
abbrev ElementEnds (k : Kind) : Prop := TypeEnds k ∧ k ≠ .questionToken ∧ k ≠ .colonToken

/-- No label stands where a type is written. -/
theorem not_opensLabel {s u : Stream} (opens : w.Opens ws) (spells : s.Spells (w :: ws) u)
    (last : u.current.kind ≠ .colonToken)
    (single : u.current.kind = .questionToken → u.next.current.kind ≠ .colonToken) :
    opensLabel s = false := by
  obtain ⟨first, -, behind⟩ := spells
  have no_dots : s.current.kind ≠ .dotDotDotToken := fun is =>
    opens.start (by rw [← first.kind, is]; decide)
  rw [opensLabel, past_neg no_dots, Bool.and_eq_false_imp]
  intro word
  rw [first.kind] at word
  refine decide_eq_false ?_
  cases ws with
  | nil =>
    obtain rfl := show s.next = u from behind
    by_cases question : s.next.current.kind = .questionToken
    · rw [past_pos question]
      exact single question
    · rw [past_neg question]
      exact last
  | cons v ws =>
    have kind : s.next.current.kind = v.kind := behind.1.kind
    have second := opens.second word v rfl
    rw [past_neg fun is => second (by rw [← kind, is]; decide), kind]
    exact fun is => second (is ▸ by decide)

theorem element_recites (h : type.ReadsBack n l) :
    (tupleElement type).Recites n.spelled n l ElementEnds := by
  have read := h.recites
  obtain ⟨w, ws, opening⟩ := h.opening
  rw [opening.spelled_eq] at read ⊢
  have no_dots : w.kind ≠ .dotDotDotToken := fun is => opening.opens.start (is ▸ by decide)
  refine .ask atLabel_gives (fun s u spells ends => ?_) (.ite_neg Bool.false_ne_true
    (.accept_other (.cons no_dots) (.ite_neg Bool.false_ne_true (.last (read.mono fun k ends => ends.1)
      (.accept_other (.nil fun k ends => ends.2.1) (.ite_neg Bool.false_ne_true .pure))))))
  exact not_opensLabel opening.opens spells ends.2.2 fun is => absurd is ends.2.1

theorem optionalType_recites (h : type.ReadsBack n l) :
    (tupleElement type).Recites (Node.optionalType n).spelled (.optionalType n) l ElementEnds := by
  have read := h.recites
  obtain ⟨w, ws, opening⟩ := h.opening
  rw [spelled]
  rw [opening.spelled_eq] at read ⊢
  have no_dots : w.kind ≠ .dotDotDotToken := fun is => opening.opens.start (is ▸ by decide)
  refine .ask atLabel_gives (fun s u spells ends => ?_) (.ite_neg Bool.false_ne_true
    (.accept_other (.cons no_dots) (.ite_neg Bool.false_ne_true (.bind read
      (.andThen .accept (.ite_pos rfl .pure)) (.cons (by decide))))))
  obtain ⟨v, here, mark, -, rfl⟩ := Stream.spells_append.mp spells
  refine not_opensLabel opening.opens here ?_ fun _ => ends.2.2
  rw [mark.kind]
  decide

theorem restType_recites (h : type.ReadsBack n l) :
    (tupleElement type).Recites (Node.restType n).spelled (.restType n) l ElementEnds := by
  have read := h.recites
  obtain ⟨w, ws, opening⟩ := h.opening
  rw [spelled]
  rw [opening.spelled_eq] at read ⊢
  refine .ask atLabel_gives (fun s u spells ends => ?_) (.ite_neg Bool.false_ne_true
    (.andThen .accept (.ite_pos rfl (.last (read.mono fun k ends => ends.1) .pure))))
  have label := not_opensLabel opening.opens spells.2.2 ends.2.2 fun is => absurd is ends.2.1
  have dots : s.current.kind = .dotDotDotToken := spells.1.kind
  have no_dots : s.next.current.kind ≠ .dotDotDotToken := fun is =>
    opening.opens.start (by rw [← spells.2.2.1.kind, is]; decide)
  rw [opensLabel, past_neg no_dots] at label
  rw [opensLabel, past_pos dots]
  exact label

theorem namedTupleMember_recites {dots : Option Node} (mark : IsMark .dotDotDotToken dots)
    (name : n.IsName) (mark' : IsMark .questionToken question)
    (inner : type.Recites t.spelled t l TypeEnds) :
    (tupleElement type).Recites (Node.namedTupleMember dots n question t).spelled
      (.namedTupleMember dots n question t) l ElementEnds := by
  have annotated : (do
      expect .colonToken
      return .namedTupleMember dots n question (← type) : Rule Nat Node).Recites
      (.mark .colonToken :: t.spelled) (.namedTupleMember dots n question t) l ElementEnds :=
    .andThen .expect (.last (inner.mono fun k ends => ends.1) .pure)
  have read : (labelledElement type).Recites (Node.namedTupleMember dots n question t).spelled
      (.namedTupleMember dots n question t) l ElementEnds :=
    .bind (.token? mark) (.andThen (anyName_recites name) (.bind (.token? mark') annotated
      (.cons (by decide)))) (name.starts (by decide)).front
  refine .ask atLabel_gives (fun s u spells _ => ?_) (.ite_pos rfl read)
  obtain ⟨text, rfl, identifier⟩ := name.eq_name
  have label := past_spells mark (w := .name text) (by rw [identifier]; decide) spells
  have colon := past_spells mark' (w := .mark .colonToken) (by decide) label.2.2
  have kind : (past .questionToken (past .dotDotDotToken s).next).current.kind = .colonToken :=
    colon.1.kind
  rw [opensLabel, label.1.kind, identifier, kind]
  rfl

theorem starts_element (h : Written .element n) :
    Word.Starts (· ≠ .closeBracketToken) n.spelled fun _ => True := by
  have opens {t : Node} (h : Written .type t) :
      Word.Starts (· ≠ .closeBracketToken) t.spelled fun _ => True := by
    obtain ⟨w, ws, opening⟩ := h.opening
    rw [opening.spelled_eq]
    exact .cons fun is => opening.opens.start (is ▸ by decide)
  cases h with
  | element plain => exact opens plain
  | optionalType inner => exact (opens inner).front
  | restType => exact .cons (by decide)
  | namedTupleMember mark name => exact mark.starts (by decide) (name.starts (by decide)).front

theorem tupleType_recites (written : ∀ n ∈ ns, Written .element n)
    (each : ∀ n ∈ ns, (tupleElement type).Recites n.spelled n l ElementEnds) :
    (primaryType type).Recites (Node.tupleType ns).spelled (.tupleType ns) l P := by
  have close : Recites (do
      expect .closeBracketToken
      return .tupleType ns : Rule Nat Node) [.mark .closeBracketToken] (.tupleType ns) l P :=
    .last .expect .pure
  have read : (tupleType type).Recites (Node.tupleType ns).spelled (.tupleType ns) l P := by
    refine .andThen .expect ?_
    cases ns with
    | nil => exact .atKind (.cons rfl) (.ite_pos rfl close)
    | cons a as =>
      have list := Recites.delimited true each (by decide) fun n mem =>
        starts_element (written n mem)
      have first := starts_element (written a List.mem_cons_self)
      rw [spelledList_cons]
      exact .atKind_other first.front.front (.ite_neg Bool.false_ne_true
        (.bind list close (.cons (by decide))))
  exact primaryType_recites rfl read

theorem primaryTypeAt_brace : primaryTypeAt type .openBraceToken = (do
    if ← atMappedType then mappedType type else .typeLiteral <$> typeMembers type : Rule Nat Node) := rfl

theorem typeLiteral_recites [Balanced type] (written : ∀ n ∈ ns, Written .member n)
    (each : ∀ n ∈ ns, (typeMember type).Recites n.spelled n l fun _ => True) :
    (primaryType type).Recites (Node.typeLiteral ns).spelled (.typeLiteral ns) l P := by
  have members := typeMembers_recites (P := P) written each
  refine primaryType_recites primaryTypeAt_brace fun o depth s u scanned spells ends room => ?_
  have read := members scanned spells ends room
  have literal : s.opensMappedType = false :=
    Bool.eq_false_iff.mpr (typeMembers_not_mapped (leads_of_gives read))
  have looked := atMappedType_gives o ⟨s, depth⟩
  rw [show (State.stream ⟨s, depth⟩).opensMappedType = false from literal] at looked
  exact .bind looked (.ite_neg Bool.false_ne_true read.map)

/-- A mark with a sign in front of it is read up to a token that is none of them. -/
theorem signed_recites {k : Kind} (mark : IsSigned k m) (other : k ≠ .plusToken ∧ k ≠ .minusToken) :
    (signed k).Recites (Word.signed k m) m l
      fun x => x ≠ k ∧ x ≠ .plusToken ∧ x ≠ .minusToken := by
  cases m with
  | none =>
    rintro o depth s u - rfl ends -
    refine .bind .current (.ite_neg ?_ (.token?_not ends.1))
    simp [ends.2.1, ends.2.2]
  | some n =>
    have sign {sign : Kind} (is : sign = .plusToken ∨ sign = .minusToken) :
        (signed k).Recites (Word.signed k (some (.token sign))) (some (.token sign)) l
          fun x => x ≠ k ∧ x ≠ .plusToken ∧ x ≠ .minusToken := by
      have differ : sign ≠ k := by
        rintro rfl
        exact is.elim other.1 other.2
      rw [Word.signed, if_neg differ]
      refine .current fun t here => .ite_pos ?_ (.andThen .advance (.last .expect ?_))
      · have kind : t.kind = sign := here.kind
        rcases is with rfl | rfl
        · simp [kind]
        · simp [kind]
      · have kind : t.kind = sign := here.kind
        rw [kind]
        exact .pure
    rcases mark n rfl with rfl | rfl | rfl
    · rw [Word.signed, if_pos rfl]
      refine .current fun t here => .ite_neg ?_ (.mono (.token? (m := some (.token k))
        fun n mem => (Option.some.inj mem).symm) fun x ends => ends.1)
      have kind : t.kind = k := here.kind
      simp [kind, other.1, other.2]
    · exact sign (.inl rfl)
    · exact sign (.inr rfl)

theorem mappedType_recites [Balanced type] {readonlyToken nameType : Option Node} {key constraint : Node}
    (mark : IsSigned .readonlyKeyword readonlyToken) (name : key.IsName)
    (keys : type.Recites constraint.spelled constraint l TypeEnds)
    (names : ∀ m ∈ nameType, type.Recites m.spelled m l TypeEnds)
    (mark' : IsSigned .questionToken question) (values : ∀ t ∈ m, type.Recites t.spelled t l TypeEnds) :
    (primaryType type).Recites
      (Node.mappedType readonlyToken (.typeParameter key (some constraint) none) nameType question m).spelled
      (.mappedType readonlyToken (.typeParameter key (some constraint) none) nameType question m) l P := by
  let tree : Node :=
    .mappedType readonlyToken (.typeParameter key (some constraint) none) nameType question m
  have ofKey : (expect .inKeyword).Recites [.mark .inKeyword] () l fun _ => True := .expect
  have read : (mappedType type).Recites tree.spelled tree l P := by
    refine .andThen .expect (.bind (signed_recites mark (by decide)) (.andThen .expect (.andThen
      (name_recites name) (ofKey.andThen (.bind keys (.bind (.optionalAfter names) (.andThen .expect
        (.bind (signed_recites mark' (by decide)) (.bind (.optionalAfter values) (.accept_other
          (.cons (by decide)) (.ite_pos rfl (.accept_other (.cons (by decide)) (.last .expect .pure))))
            (.cons (by decide))) ?_)) (.cons (by decide))) ?_)))) (.cons (by decide)))
    · cases m with
      | none => exact .cons (by decide)
      | some t => exact .cons (by decide)
    · cases nameType with
      | none => exact .cons (by decide)
      | some t => exact .cons (by decide)
  refine primaryType_recites primaryTypeAt_brace fun o depth s u scanned spells ends room => ?_
  have given := read scanned spells ends room
  have looked := atMappedType_gives o ⟨s, depth⟩
  rw [mappedType_opens (leads_of_gives given)] at looked
  exact .bind looked (.ite_pos rfl given)

end Grammar

end Ambient

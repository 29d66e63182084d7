import Ambient.Proofs.Lexeme.Append
import Ambient.Proofs.Pairing.Entry
import Ambient.Proofs.Parse.Reads

namespace Ambient

open Rule Grammar

/-- A statement of a file, or none at its end. -/
abbrev fileItem : Rule Nat (Option Node) := statementItem statement .endOfFileToken

section

variable {o : Options} {s t : State Nat} {l : List Node}

theorem nears_fileItem : Nears fileItem o := by
  intro s t n scanned h
  exact (statementOrEnd_yields statement_reads (leads_of_gives h)).1.nearer scanned

theorem fileItem_next (scanned : Scanned s.stream.toList)
    (is : s.stream.current.kind = .semicolonToken) {x : Option Node} :
    fileItem.Gives o s x t ↔ fileItem.Gives o s.next x t := by
  constructor
  · intro h
    obtain ⟨⟨⟩, u, skip, h⟩ := h.of_bind
    exact .bind ((skipSemicolons_next scanned is).mp skip) h
  · intro h
    obtain ⟨⟨⟩, u, skip, h⟩ := h.of_bind
    exact .bind ((skipSemicolons_next scanned is).mpr skip) h

/-- The same statements follow behind a semicolon. -/
theorem collects_next (scanned : Scanned s.stream.toList)
    (is : s.stream.current.kind = .semicolonToken) :
    Collects fileItem o s l t ↔ Collects fileItem o s.next l t := by
  constructor
  · rintro (nothing | ⟨found, others⟩)
    · exact .stop ((fileItem_next scanned is).mp nothing)
    · exact .more ((fileItem_next scanned is).mp found) others
  · rintro (nothing | ⟨found, others⟩)
    · exact .stop ((fileItem_next scanned is).mpr nothing)
    · exact .more ((fileItem_next scanned is).mpr found) others

theorem fileItem_of_ne {x : Option Node} (other : s.stream.current.kind ≠ .semicolonToken)
    (h : fileItem.Gives o s x t) :
    x = none ∧ s.stream.current.kind = .endOfFileToken ∨
      s.stream.current.kind ≠ .endOfFileToken ∧ ∃ n, x = some n ∧ statement.Gives o s n t := by
  obtain ⟨⟨⟩, u, skip, h⟩ := h.of_bind
  obtain rfl := skipSemicolons_still skip other
  by_cases last : s.stream.current.kind = .endOfFileToken
  · exact .inl ⟨(BlockItem.itemUnless_end (by simp [last]) h).1, last⟩
  · exact .inr ⟨last, BlockItem.itemUnless_more (by simp [last]) h⟩

/-- At the end of a text there are no statements. -/
theorem collects_end (last : s.stream.current.kind = .endOfFileToken)
    (h : Collects fileItem o s l t) : l = [] := by
  have other : s.stream.current.kind ≠ .semicolonToken := by rw [last]; decide
  cases h with
  | stop => rfl
  | more found =>
    rcases fileItem_of_ne other found with ⟨⟨⟩, -⟩ | ⟨more, -⟩
    exact absurd last more

/-- Where neither a semicolon nor the end of the text stands, a statement does. -/
theorem collects_statement (h : Collects fileItem o s l t)
    (other : s.stream.current.kind ≠ .semicolonToken)
    (more : s.stream.current.kind ≠ .endOfFileToken) :
    ∃ n l' u, l = n :: l' ∧ statement.Gives o s n u ∧ Collects fileItem o u l' t := by
  cases h with
  | stop nothing =>
    rcases fileItem_of_ne other nothing with ⟨-, last⟩ | ⟨-, n, ⟨⟩, -⟩
    exact absurd last more
  | more found others =>
    rcases fileItem_of_ne other found with ⟨⟨⟩, -⟩ | ⟨-, n, some, read⟩
    obtain rfl := Option.some.inj some
    exact ⟨_, _, _, rfl, read, others⟩

theorem collects_of_statement {n : Node} {u : State Nat} (read : statement.Gives o s n u)
    (other : s.stream.current.kind ≠ .semicolonToken)
    (more : s.stream.current.kind ≠ .endOfFileToken) (h : Collects fileItem o u l t) :
    Collects fileItem o s (n :: l) t := by
  have nothing : semicolon?.Gives o s none s := .bind (.accept_not other) .pure
  have still : skipSemicolons.Gives o s () s := .bind (.many_none nothing) .pure
  exact .more (.bind still (.bind .current (.ite_neg (by simp [more]) (.map read)))) h

theorem sourceFile_gives_iff (scanned : Scanned s.stream.toList) {n : Node} :
    sourceFile.Gives o s n t ↔ ∃ l, n = .sourceFile l ∧ Collects fileItem o s l t := by
  have loop {l : List Node} : (statementsUntil statement .endOfFileToken).Gives o s l t ↔
      Collects fileItem o s l t := by
    rw [statementsUntil_eq]
    exact many_gives_iff nears_fileItem scanned
  constructor
  · intro h
    obtain ⟨l, u, h, ⟨⟩⟩ := h.of_bind
    exact ⟨l, rfl, loop.mp h⟩
  · rintro ⟨l, rfl, h⟩
    exact .map (loop.mpr h)

end

namespace Pairing

/-- A parse of some tokens in front of the end of a text, and of the same in front of others. -/
def ofFront (o : Options) (last : Lexeme) (others : Stream) : Pairing where
  left := o
  right := o
  comment := id
  faithful := False
  Near _ _ := False
  Abreast s s' := ∃ t ts, s.toList = t :: ts ++ [last] ∧ s'.toList = t :: ts ++ others.toList ∧
    Scanned s.toList ∧ Scanned s'.toList
  Ends s s' := s.toList = [last] ∧ s' = others

variable {o : Options} {last : Lexeme} {others : Stream}

theorem lawful_ofFront (is_end : last.kind = .endOfFileToken)
    (semicolon : others.current.kind = .semicolonToken) : (ofFront o last others).Lawful where
  depth_le := Nat.le_refl _
  depth_eq _ := rfl
  comment_none := rfl
  ordered := False.elim
  like := by
    rintro ⟨t, ahead⟩ ⟨t', ahead'⟩ ⟨u, ts, eq, eq', -⟩
    obtain rfl : t = u := (List.cons.inj eq).1
    obtain rfl : t' = t := (List.cons.inj eq').1
    exact ⟨rfl, rfl, rfl, .inl rfl, rfl, False.elim⟩
  next := by
    rintro ⟨t, ahead⟩ ⟨t', ahead'⟩ ⟨u, ts, eq, eq', scanned, scanned'⟩ more
    obtain rfl := (List.cons.inj eq).2
    obtain rfl := (List.cons.inj eq').2
    cases ts with
    | nil => exact .inr ⟨rfl, rfl⟩
    | cons v ts =>
      exact .inl ⟨v, ts, rfl, rfl, scanned.tail (List.cons_ne_nil _ _),
        scanned'.tail (List.cons_ne_nil _ _)⟩
  firm := by
    rintro s s' - - ⟨u, ts, eq, eq', -⟩
    have left : s.next.current = u := (List.cons.inj eq).1
    have right : s'.next.current = u := (List.cons.inj eq').1
    rw [left, right]
  length_le := by
    rintro s s' ⟨u, ts, eq, eq', -⟩
    have left := congrArg List.length (List.cons.inj eq).2
    have right := congrArg List.length (List.cons.inj eq').2
    simp only [List.length_append, List.append_eq, List.length_cons, List.length_nil,
      Stream.toList] at left right
    omega
  length_eq := False.elim
  scanned := by
    rintro s s' ⟨-, -, -, -, scanned, -⟩
    exact scanned
  not_faithful _ := id
  ends := by
    rintro ⟨t, ahead⟩ _ ⟨eq, rfl⟩
    obtain ⟨rfl, rfl⟩ := List.cons.inj eq
    exact ⟨is_end, rfl, semicolon⟩

end Pairing

section

variable {o : Options} {last : Lexeme} {others : Stream}

theorem not_collects_of_stuck {P : Pairing} {s t : State Nat} {l : List Node} (stuck : P.Stuck s) :
    ¬ Collects fileItem P.left s l t := by
  obtain ⟨-, follows, none⟩ := stuck
  intro h
  obtain ⟨n, -, u, -, read, -⟩ := collects_statement h (Kind.ne_of_class follows rfl)
    (Kind.ne_of_class follows rfl)
  rw [Gives, statement_apply] at read
  exact none _ n u read

/-- What follows behind the semicolon is read behind the statements of the first file. -/
theorem collects_front (is_end : last.kind = .endOfFileToken)
    (semicolon : others.current.kind = .semicolonToken) (scanned : Scanned others.toList)
    {s s' t u : State Nat} {l l' : List Node} (stands : (Pairing.ofFront o last others).Stands .passed s s')
    (h : Collects fileItem o s l t) (follow : Collects fileItem o ⟨others, s.depth⟩ l' u) :
    Collects fileItem o s' (l ++ l') u := by
  have laws := Pairing.lawful_ofFront (o := o) is_end semicolon
  obtain ⟨depth, meet⟩ := stands
  rcases meet with abreast | ends | ⟨v, ends, behind⟩
  · obtain ⟨first, ts, eq, eq', scanned, scanned'⟩ := id abreast
    have more : s.stream.current.kind ≠ .endOfFileToken := by
      intro is
      have nothing := scanned.ahead_eq_nil is
      have behind := (List.cons.inj eq).2
      rw [nothing] at behind
      simp at behind
    have inside : (Pairing.ofFront o last others).Stands .inside s s' := ⟨depth, abreast, more⟩
    have kind := (laws.like abreast).kind
    by_cases is : s.stream.current.kind = .semicolonToken
    · have shorter := inside.ahead_lt
      have rest := (collects_next scanned is).mp h
      have both := collects_front is_end semicolon ‹_› inside.next.within rest follow
      exact (collects_next scanned' (kind ▸ is)).mpr both
    · obtain ⟨n, l, w, rfl, read, rest⟩ := collects_statement h is more
      have shorter : w.stream.ahead.length < s.stream.ahead.length :=
        ((statement_reads (leads_of_gives read)).nearer scanned).2
      have level : w.depth = s.depth := by rw [Balanced.ok_eq read]
      have runs : (Pairing.ofFront o last others).Runs statement statement := inferInstance
      rcases runs.gives inside read with stuck | ⟨n', w', read', same, after, -⟩
      · exact absurd rest (not_collects_of_stuck stuck)
      · obtain rfl : n = n' := same.trans n'.mapComments_id
        have both := collects_front is_end semicolon ‹_› after rest (level ▸ follow)
        exact collects_of_statement read' (kind ▸ is) (kind ▸ more) both
  · obtain rfl := collects_end (laws.ends ends).1 h
    obtain rfl : s' = ⟨others, s.depth⟩ := by rw [depth, ← ends.2]
    exact follow
  · obtain rfl := collects_end (laws.ends ends).1 h
    have next := (collects_next (s := ⟨others, s.depth⟩) scanned semicolon).mp follow
    obtain rfl : s' = State.next ⟨others, s.depth⟩ := by
      obtain ⟨-, rfl⟩ := ends
      rw [depth, State.next, ← behind]
    exact next
termination_by s.stream.ahead.length

end

namespace Lexeme.Echoes

variable {t u : Lexeme}

theorem value (h : t.Echoes u) : t.value = u.value := by
  rw [Lexeme.value, Lexeme.value, h.kind, h.text, h.error]

theorem documentation (h : t.Echoes u) (o : Options) : t.documentation o = u.documentation o := by
  have texts (t : Lexeme) : t.documentation o =
      if o.keepsComments then (t.comment.map Comment.text).bind Ambient.documentation else none := by
    rw [Lexeme.documentation, Option.bind_map]
    rfl
  rw [texts, texts, h.comment]

end Lexeme.Echoes

namespace Pairing

/-- Parses of the same tokens at other places, of which the first may stand on a new line. -/
def ofEchoes (o : Options) : Pairing where
  left := o
  right := o
  comment := id
  faithful := False
  Near _ _ := False
  Abreast s s' := s.current.Echoes s'.current ∧ (s.current.onNewLine = s'.current.onNewLine ∨
      s'.current.onNewLine = true ∧ s.current.kind ∉ lineBound) ∧
    s.ahead.Forall₂ (fun t u => t.Echoes u ∧ t.onNewLine = u.onNewLine) s'.ahead ∧ Scanned s.toList
  Ends _ _ := False

theorem lawful_ofEchoes (o : Options) : (ofEchoes o).Lawful where
  depth_le := Nat.le_refl _
  depth_eq _ := rfl
  comment_none := rfl
  ordered := False.elim
  like := by
    rintro s s' ⟨echoes, line, -⟩
    exact ⟨echoes.kind, echoes.value, echoes.error, line.imp_right fun h => ⟨id, h⟩,
      echoes.documentation o, False.elim⟩
  next := by
    rintro ⟨t, ahead⟩ ⟨t', ahead'⟩ ⟨echoes, line, others, scanned⟩ more
    cases others with
    | nil => exact absurd rfl (scanned.ahead_ne_nil more)
    | cons first others =>
      exact .inl ⟨first.1, .inl first.2, others, scanned.tail (List.cons_ne_nil _ _)⟩
  firm := by
    rintro ⟨t, ahead⟩ ⟨t', ahead'⟩ ⟨echoes, line, others, scanned⟩ more -
    cases others with
    | nil => exact absurd rfl (scanned.ahead_ne_nil more)
    | cons first others => exact first.2
  length_le := by
    rintro s s' ⟨-, -, others, -⟩
    exact Nat.le_of_eq others.length_eq
  length_eq := False.elim
  scanned := by
    rintro s s' ⟨-, -, -, scanned⟩
    exact scanned
  not_faithful := False.elim
  ends := False.elim

end Pairing

/-- A file starts with no token whose line matters. -/
theorem not_lineBound_of_collects {o : Options} {s t : State Nat} {l : List Node}
    (h : Collects fileItem o s l t) : s.stream.current.kind ∉ Pairing.lineBound := by
  by_cases other : s.stream.current.kind = .semicolonToken
  · rw [other]
    decide
  · by_cases last : s.stream.current.kind = .endOfFileToken
    · rw [last]
      decide
    · obtain ⟨n, -, u, -, read, -⟩ := collects_statement h other last
      have starts := (StatementRule.starts (leads_of_gives read)).1
      revert starts
      generalize s.stream.current.kind = k
      revert k
      decide

/-- The statements of a file. -/
def Node.statements : Node → List Node
  | .sourceFile statements => statements
  | _ => []

theorem clean_of_parse {entry : Entry} {o : Options} {text : String} {n : Node}
    (h : parse entry o text = .ok n) :
    ∀ t ∈ lexemes text, t.kind ≠ .endOfFileToken → t.error = none := by
  obtain ⟨read, last, eq, is_end, clean, -⟩ := parse_reads h
  intro t mem more
  rw [eq, List.mem_append, List.mem_singleton] at mem
  rcases mem with mem | rfl
  · exact clean t mem
  · exact absurd is_end more

theorem collects_of_parse {o : Options} {text : String} {n : Node}
    (h : parse .file o text = .ok n) :
    ∃ t, Collects fileItem o ⟨.ofText text, 0⟩ n.statements t := by
  obtain ⟨t, read⟩ := gives_of_parse h
  obtain ⟨l, rfl, collects⟩ :=
    (sourceFile_gives_iff (Stream.toList_ofText text ▸ scanned_lexemes text)).mp read
  exact ⟨t, collects⟩

theorem Stream.eq_of_toList {s : Stream} {t : Lexeme} {ts : List Lexeme} (h : s.toList = t :: ts) :
    s = ⟨t, ts⟩ := by
  obtain ⟨current, ahead⟩ := s
  obtain ⟨rfl, rfl⟩ := List.cons.inj h
  rfl

theorem Scanned.last_kind {read : List Lexeme} {last : Lexeme} (h : Scanned (read ++ [last])) :
    last.kind = .endOfFileToken := by
  cases h.of_append (List.cons_ne_nil _ _) with
  | ending kind _ => exact kind
  | cons _ _ others => cases others

/-- The statements of a file also follow on a new line behind others. -/
theorem collects_of_echoes {o : Options} {s s' t : State Nat} {l : List Node}
    (stands : (Pairing.ofEchoes o).Stands .met s s') (scanned : Scanned s.stream.toList)
    (scanned' : Scanned s'.stream.toList) (h : Collects fileItem o s l t) :
    ∃ t', Collects fileItem o s' l t' := by
  have laws := Pairing.lawful_ofEchoes o
  have follows : Follows (Pairing.ofEchoes o) .met .met sourceFile sourceFile :=
    follows_sourceFile fun _ ⟨_, ends⟩ => ends
  have read := (sourceFile_gives_iff scanned).mpr ⟨l, rfl, h⟩
  obtain ⟨f, t', read', same, -⟩ := follows.gives stands read
  obtain rfl : .sourceFile l = f := same.trans f.mapComments_id
  obtain ⟨l', eq, collects⟩ := (sourceFile_gives_iff scanned').mp read'
  obtain rfl := Node.sourceFile.inj eq
  exact ⟨t', collects⟩

/-- Two files that can be read make one with the statements of both, with a semicolon on a line of
its own between them. -/
theorem parse_join (o : Options) {a b : String} {A B : Node} (h : parse .file o a = .ok A)
    (h' : parse .file o b = .ok B) :
    parse .file o (a ++ "\n;\n" ++ b) = .ok (.sourceFile (A.statements ++ B.statements)) := by
  obtain ⟨read, last, semicolon, t, ts, u, us, eq, kind, eq', joined, echoes, line, alike⟩ :=
    lexemes_join (clean_of_parse h) (clean_of_parse h')
  obtain ⟨x, first⟩ := collects_of_parse h
  obtain ⟨y, second⟩ := collects_of_parse h'
  have tokens : (Stream.ofText a).toList = read ++ [last] := (Stream.toList_ofText a).trans eq
  have tokens' : Stream.ofText b = ⟨t, ts⟩ :=
    Stream.eq_of_toList ((Stream.toList_ofText b).trans eq')
  have all := (Stream.toList_ofText (a ++ "\n;\n" ++ b)).trans joined
  have scanned : Scanned (read ++ [last]) := eq ▸ scanned_lexemes a
  have scanned' : Scanned (t :: ts) := eq' ▸ scanned_lexemes b
  have scanned_all : Scanned (read ++ semicolon :: u :: us) := joined ▸ scanned_lexemes _
  have scanned_behind : Scanned (Stream.toList ⟨semicolon, u :: us⟩) :=
    scanned_all.of_append (List.cons_ne_nil _ _)
  obtain ⟨z, behind⟩ : ∃ z, Collects fileItem o ⟨⟨u, us⟩, 0⟩ B.statements z := by
    rw [tokens'] at second
    have place := not_lineBound_of_collects second
    have stands : (Pairing.ofEchoes o).Stands .met ⟨⟨t, ts⟩, 0⟩ ⟨⟨u, us⟩, 0⟩ :=
      ⟨rfl, .inl ⟨echoes, .inr ⟨line, place⟩, alike, scanned'⟩⟩
    exact collects_of_echoes stands scanned' (scanned_behind.tail (List.cons_ne_nil _ _)) second
  have follow := (collects_next (s := ⟨⟨semicolon, u :: us⟩, 0⟩) scanned_behind kind).mpr behind
  have stands : (Pairing.ofFront o last ⟨semicolon, u :: us⟩).Stands .passed ⟨.ofText a, 0⟩
      ⟨.ofText (a ++ "\n;\n" ++ b), 0⟩ := by
    refine ⟨rfl, ?_⟩
    cases read with
    | nil => exact .inr (.inl ⟨tokens, Stream.eq_of_toList all⟩)
    | cons v vs => exact .inl ⟨v, vs, tokens, all, tokens ▸ scanned, all ▸ scanned_all⟩
  have both := collects_front scanned.last_kind kind scanned_behind stands first follow
  exact parse_of_gives ((sourceFile_gives_iff (all ▸ scanned_all)).mpr ⟨_, rfl, both⟩)

/-- A module that ends with its file, and a documented type. -/
theorem parse_join_module_type : ∃ A B, parse .file {} "declare module 'm'" = .ok A ∧
    parse .file {} "/** Named. */ type T = string" = .ok B ∧
    parse .file {} ("declare module 'm'" ++ "\n;\n" ++ "/** Named. */ type T = string") =
      .ok (.sourceFile (A.statements ++ B.statements)) := by
  have parses : (parse .file {} "declare module 'm'").toOption.any (fun _ => true) = true := by
    decide +kernel
  have parses' :
      (parse .file {} "/** Named. */ type T = string").toOption.any (fun _ => true) = true := by
    decide +kernel
  obtain ⟨A, parsed, -⟩ := exists_of_any parses
  obtain ⟨B, parsed', -⟩ := exists_of_any parses'
  exact ⟨A, B, parsed, parsed', parse_join {} parsed parsed'⟩

end Ambient

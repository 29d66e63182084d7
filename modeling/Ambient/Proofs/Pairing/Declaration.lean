import Ambient.Grammar.Declaration
import Ambient.Grammar.Import
import Ambient.Proofs.Pairing.Type

namespace Ambient

namespace Grammar

open Rule Follows

set_option synthInstance.maxSize 1000

variable {P : Pairing} [laws : P.Lawful] {p q : Closeness}

instance (allowed : List Kind) [kinds : ModifierKinds allowed] :
    Follows P .abreast .met (declarationHead allowed) (declarationHead allowed) := by
  unfold declarationHead
  infer_instance

/-- What follows a head follows it whatever the head is. -/
theorem behind_head {allowed : List Kind} [kinds : ModifierKinds allowed]
    {f f' : Option String × Option (List Node) → Rule Nat Node}
    (each : ∀ comment ms, Follows P .met q (f (commented P.comment comment, commented P.comment ms))
      (f' (comment, ms))) :
    Follows P .abreast q (declarationHead allowed >>= f) (declarationHead allowed >>= f') :=
  bind_of inferInstance fun head => each head.1 head.2

instance : Follows P .abreast .met interfaceDeclaration interfaceDeclaration :=
  behind_head fun _ _ => inferInstance

instance : Follows P .abreast .met classDeclaration classDeclaration :=
  behind_head fun _ _ => inferInstance

instance : Follows P .abreast .passed typeAlias typeAlias :=
  behind_head fun _ _ => inferInstance

instance : Follows P .abreast .passed functionDeclaration functionDeclaration :=
  behind_head fun _ _ => inferInstance

theorem enumMember_stops {o : Options} {s t : State Nat} {n : Node}
    (last : s.stream.current.kind = .endOfFileToken) : ¬ enumMember.Gives o s n t := by
  intro h
  obtain ⟨comment, u, here, h⟩ := h.of_bind
  obtain rfl := documentationHere_still here
  obtain ⟨_, _, ⟨⟩, h⟩ := h.of_bind
  rw [Gives, if_neg (by rw [last]; decide)] at h
  cases h

instance : Follows P .met .met enumValue enumValue := by
  refine bind_of (inferInstance : Follows P .met .met literal? literal?) fun found => ?_
  cases found with
  | none => exact Follows.failHere .enumValueNotConstant []
  | some n => exact inferInstanceAs (Follows P .met .met (Pure.pure (commented P.comment n)) _)

instance : Follows P .met .met enumMember enumMember := by
  refine of_abreast (bind_of documentationHere fun comment => current fun t t' like => ?_)
    enumMember_stops
  rw [like.kind]
  infer_instance

instance : Follows P .abreast .met enumDeclaration enumDeclaration :=
  behind_head fun _ _ => inferInstance

instance {c c' : Option String} [shown : Shown P.comment c c'] :
    Follows P .met .met (variableDeclaration c) (variableDeclaration c') := by
  unfold variableDeclaration
  infer_instance

instance {c c' : Option String} [shown : Shown P.comment c c'] :
    Follows P .met .met (variableList c) (variableList c') := by
  unfold variableList
  infer_instance

instance : Follows P .abreast .passed variableStatement variableStatement := by
  refine behind_head fun comment ms => current_cases (fun t t' like _ => ?_) fun t t' last last' => ?_
  · rw [like.kind]
    split <;> infer_instance
  · rw [last]
    rcases last' with is | is <;> rw [is] <;> exact Follows.failHere .variableExpected []

/-- Whether `type` comes next and a token that satisfies `follows` behind it. -/
def nextTypeOnly (follows : Kind → Bool) (s : Stream) : Bool :=
  decide (s.current.kind = .typeKeyword) && follows s.next.current.kind

/-- Looking ahead for `type`. -/
abbrev aheadTypeOnly (follows : Kind → Bool) : Rule Nat Bool := lookAhead do
  if ← accept .typeKeyword then return follows (← Rule.current).kind else return false

theorem aheadTypeOnly_gives (follows : Kind → Bool) (o : Options) (s : State Nat) :
    (aheadTypeOnly follows).Gives o s (nextTypeOnly follows s.stream) s := by
  unfold nextTypeOnly
  by_cases is : s.stream.current.kind = .typeKeyword
  · have ahead : (aheadTypeOnly follows).Gives o s (follows s.stream.next.current.kind)
        ⟨s.stream, s.next.depth⟩ :=
      .lookAhead (.bind (.accept is) (.bind .current .pure))
    rwa [decide_eq_true is, Bool.true_and]
  · rw [decide_eq_false is, Bool.false_and]
    exact .lookAhead (.bind (.accept_not is) .pure)

theorem follows_acceptTypeOnly (follows : Kind → Bool) (ends : follows .endOfFileToken = false)
    (semicolon : follows .semicolonToken = false) :
    Follows P .met .met (acceptTypeOnly follows) (acceptTypeOnly follows) := by
  have tests : Tests P .met (aheadTypeOnly follows) (aheadTypeOnly follows) := by
    refine .of_value (aheadTypeOnly_gives follows) (fun s is => ?_) fun {s s'} stands => ?_
    · unfold nextTypeOnly
      rcases is with is | is <;> rw [is] <;> rfl
    · have here := (stands.within (q := .met)).class_eq (c := (decide <| · = .typeKeyword)) rfl rfl
      have next : follows s.next.stream.current.kind = follows s'.next.stream.current.kind :=
        stands.next.class_eq ends semicolon
      unfold nextTypeOnly
      exact congr (congrArg and here) next
  have same : acceptTypeOnly follows = (aheadTypeOnly follows >>= fun found =>
      if found = true then advance >>= fun _ => Pure.pure true else Pure.pure false) := by
    refine congrArg (aheadTypeOnly follows >>= ·) (funext fun found => ?_)
    cases found <;> rfl
  rw [same]
  infer_instance

theorem follows_specifier {make : Bool → Option Node → Node → Node}
    (shown : ∀ b x n, Shown P.comment (make b (commented P.comment x) (commented P.comment n))
      (make b x n)) :
    Follows P .met .met (specifier make) (specifier make) := by
  have typed := follows_acceptTypeOnly (P := P) (fun k => k.isMemberName && k ≠ .asKeyword)
    rfl rfl
  refine next fun isTypeOnly => next fun first => next fun second => ?_
  cases second with
  | none =>
    have made : Shown P.comment (make isTypeOnly none (commented P.comment first))
      (make isTypeOnly none first) := shown isTypeOnly none first
    exact @Follows.pure _ _ _ _ _ _ _ _ made
  | some second =>
    have made : Shown P.comment
        (make isTypeOnly (some (commented P.comment first)) (commented P.comment second))
        (make isTypeOnly (some first) second) := shown isTypeOnly (some first) second
    exact @Follows.pure _ _ _ _ _ _ _ _ made

instance : Follows P .met .met (specifiers .importSpecifier) (specifiers .importSpecifier) := by
  have read : Follows P .met .met (specifier .importSpecifier) (specifier .importSpecifier) :=
    follows_specifier fun _ _ _ => inferInstance
  unfold specifiers
  infer_instance

instance : Follows P .met .met (specifiers .exportSpecifier) (specifiers .exportSpecifier) := by
  have read : Follows P .met .met (specifier .exportSpecifier) (specifier .exportSpecifier) :=
    follows_specifier fun _ _ _ => inferInstance
  unfold specifiers
  infer_instance

instance : Follows P .met .met importBindings importBindings := by
  unfold importBindings
  infer_instance

instance : Follows P .met .met importClause importClause := by
  have typed := follows_acceptTypeOnly (P := P) continuesImport rfl rfl
  refine next fun isTypeOnly => current_if (c := fun k => k.isName && k ≠ .fromKeyword) rfl rfl
    (fun t t' like => inferInstance) inferInstance

instance : Follows P .met .passed importDeclaration importDeclaration := by
  unfold importDeclaration
  infer_instance

instance : Follows P .met .passed exportDeclaration exportDeclaration := by
  have typed := follows_acceptTypeOnly (P := P)
    (fun k => k = .openBraceToken || k = .asteriskToken) rfl rfl
  unfold exportDeclaration
  infer_instance

/-- The name that is exported as `equals` says. -/
abbrev assigned (equals : Bool) : Rule Nat Node := do
  advance
  let expression ← entityName
  semicolon
  return .exportAssignment equals expression

instance : Follows P .met .passed exportAssignment exportAssignment := by
  refine next fun _ => current_if (c := fun k => k = .equalsToken || k = .defaultKeyword)
    (f := fun t => assigned (t.kind = .equalsToken)) (g := fun t => assigned (t.kind = .equalsToken))
    rfl rfl (fun t t' like => ?_) inferInstance
  rw [like.kind]
  infer_instance

instance : Follows P .met .passed namespaceExport namespaceExport := by
  unfold namespaceExport
  infer_instance

end Grammar

end Ambient

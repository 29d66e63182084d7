import Ambient.Proofs.Level.Type
import Ambient.Proofs.Parse.Options
import Ambient.Proofs.Spelling.Nesting

namespace Ambient

open Rule Grammar Pairing Node

section

variable {t u : Node} {options : Options}

theorem type_gives_of_written (h : Written .type t) (room : t.openLevels < options.depthLimit) :
    ∃ last : Stream, last.current.kind = .endOfFileToken ∧
      type.Gives options ⟨.ofText t.toTypeText, 0⟩ t ⟨last, 0⟩ := by
  obtain ⟨last, spells, ends⟩ := Stream.spells_join h.sound
  have scanned : Scanned (Stream.ofText t.toTypeText).toList :=
    Stream.toList_ofText t.toTypeText ▸ scanned_lexemes _
  have behind : TypeEnds last.current.kind := ends ▸ by decide
  exact ⟨last, ends, h.reads.readsBack.recites scanned spells behind (by omega)⟩

theorem type_gives_of_parse {text : String} (h : parse .type options text = .ok u) :
    ∃ s, type.Gives options ⟨.ofText text, 0⟩ u s := by
  obtain ⟨s, whole⟩ := gives_of_parse h
  obtain ⟨n, v, read, ends⟩ := Gives.of_bind (r := type) whole
  obtain ⟨b, w, -, ends⟩ := ends.of_bind
  cases b with
  | true =>
    obtain ⟨⟨rfl⟩, -⟩ := Prod.mk.inj ends
    exact ⟨v, read⟩
  | false => cases ends

theorem parse_of_written (h : Written .type t) (room : t.openLevels < options.depthLimit) :
    parse .type options t.toTypeText = .ok t := by
  obtain ⟨last, ends, read⟩ := type_gives_of_written h room
  have whole : Entry.type.rule.Gives options ⟨.ofText t.toTypeText, 0⟩ t ⟨last, 0⟩ :=
    Gives.bind read (.bind .atKind (.ite_pos (decide_eq_true ends) .pure))
  exact parse_of_gives whole

/-- A limit on levels that is raised leaves a type as it is. -/
theorem type_gives_of_depthLimit_le {o p : Options} {text : String} {s : State Nat}
    (limits : o.depthLimit ≤ p.depthLimit) (comments : o.keepsComments = p.keepsComments)
    (h : type.Gives o ⟨.ofText text, 0⟩ u s) : ∃ s', type.Gives p ⟨.ofText text, 0⟩ u s' := by
  have laws : (ofOneText o p id False).Lawful :=
    lawful_ofOneText limits False.elim rfl fun t => by rw [Lexeme.documentation, comments]; rfl
  have follows : Follows (ofOneText o p id False) .met .met type type := inferInstance
  obtain ⟨n, s', read, same, -⟩ := follows.gives (stands_ofOneText text).within h
  obtain rfl : u = n := same.trans n.mapComments_id
  exact ⟨s', read⟩

/-- The text of a type is read as this type and as nothing else, and it is read if and only if there may
be more levels than the type has open at once. -/
theorem parse_toTypeText (options : Options) (t : Node) (h : Written .type t) (u : Node) :
    parse .type options t.toTypeText = .ok u ↔ u = t ∧ t.openLevels < options.depthLimit := by
  constructor
  · intro parsed
    obtain ⟨s, read⟩ := type_gives_of_parse parsed
    -- with a higher limit the type is read for certain
    let higher : Options := ⟨some (options.depthLimit + t.openLevels + 1), options.attachComments⟩
    have limit : higher.depthLimit = options.depthLimit + t.openLevels + 1 := rfl
    obtain ⟨last, -, certain⟩ : ∃ last : Stream, _ ∧ type.Gives higher _ t ⟨last, 0⟩ :=
      type_gives_of_written h (by omega)
    obtain ⟨s', again⟩ := type_gives_of_depthLimit_le (o := options) (p := higher) (by omega) rfl read
    obtain rfl : t = u := Except.ok.inj (Prod.mk.inj (certain.symm.trans again)).1
    have within : Regime.room.Holds .bare options.depthLimit t :=
      (Heeds.holds : type.Ensures options.depthLimit _) (leads_of_gives read)
    have suits : t.Fits t.level options.depthLimit := Regime.Holds.node.mp within
    have fits := suits.openLevels_le
    rw [h.level_eq_one] at fits
    exact ⟨rfl, by omega⟩
  · rintro ⟨rfl, room⟩
    exact parse_of_written h room

end

/-- A union of an array in a tuple and of a mapped type over the keys of a type. -/
def sampleType : Node :=
  .unionType [
    .tupleType [.namedTupleMember none (.identifier "x" none) (some (.token .questionToken))
      (.arrayType (.typeReference (.identifier "A" none) none))],
    .mappedType (some (.token .minusToken)) (.typeParameter (.identifier "k" none)
      (some (.typeOperator .keyOfKeyword (.typeReference (.identifier "A" none) none))) none) none none
      (some (.parenthesizedType (.functionType none
        (some [.parameter none none (.identifier "this" none) none (.keywordType .anyKeyword)])
        (.typePredicate (some (.token .assertsKeyword)) .thisType none))))]

example : sampleType.toTypeText =
    " [ x ? : A [ ] ] | \x7b - readonly [ k in keyof A ] : ( ( this : any ) => asserts this ) \x7d" := by
  decide +kernel

theorem written_sampleType : Written .type sampleType := by
  have named (text : String) (token : IsToken .identifier text) : (Node.identifier text none).IsName :=
    ⟨text, token, rfl⟩
  have x := named "x" ⟨⟨.endOfFileToken, 1, "", false, none, none⟩, by decide +kernel⟩
  have k := named "k" ⟨⟨.endOfFileToken, 1, "", false, none, none⟩, by decide +kernel⟩
  have a := named "A" ⟨⟨.endOfFileToken, 1, "", false, none, none⟩, by decide +kernel⟩
  have nothing {α : Type} {P : α → Prop} : ∀ m ∈ (none : Option α), P m :=
    fun m mem => absurd mem (Option.not_mem_none m)
  have single {α : Type} {P : α → Prop} {m : α} (h : P m) : ∀ n ∈ some m, P n :=
    fun n mem => Option.some.inj mem ▸ h
  have reference : Written .type (.typeReference (.identifier "A" none) none) :=
    .typeReference (.name a) (by simp) nothing
  have element : Written .element _ :=
    .namedTupleMember nothing x (single rfl) (.arrayType reference rfl)
  have this : Written .parameter _ := .parameter ⟨[], .nil, List.forall_mem_nil _, rfl⟩ nothing
    (.inr rfl) nothing (fun _ => rfl) (.keywordType (k := .anyKeyword) rfl)
  have function : Written .type _ := .functionType (.signature (by simp) nothing (by simp)
    (single (List.forall_mem_singleton.mpr this)) (single (List.forall_mem_nil _))
    (.assertion (.inr rfl) nothing))
  have mapped : Written .type _ := .mappedType (single (.inr (.inr rfl))) k
    (.typeOperator (k := .keyOfKeyword) rfl reference (Nat.zero_le _)) nothing nothing
    (single (.parenthesizedType function))
  exact .unionType (Nat.le_refl 2)
    (List.forall_mem_cons.mpr ⟨.tupleType (List.forall_mem_singleton.mpr element),
      List.forall_mem_singleton.mpr mapped⟩)
    (List.forall_mem_cons.mpr ⟨Nat.zero_le _, List.forall_mem_singleton.mpr (Nat.zero_le _)⟩)

theorem parse_toTypeText_sampleType : Written .type sampleType ∧
    parse .type {} sampleType.toTypeText = .ok sampleType ∧ sampleType.openLevels < 200 := by
  have parses : (parse .type {} sampleType.toTypeText).toOption.any (fun _ => true) = true := by
    decide +kernel
  obtain ⟨u, parsed, -⟩ := exists_of_any parses
  obtain ⟨rfl, room⟩ := (parse_toTypeText {} sampleType written_sampleType u).mp parsed
  exact ⟨written_sampleType, parsed, room⟩

end Ambient

import Ambient.Proofs.Grammar.Gives
import Ambient.Proofs.Grammar.Leads
import Ambient.Proofs.Lexeme.Genuine

namespace Ambient

open Rule Grammar

/-- From `s` to `u` modifiers of the given kinds were read, all of them allowed. -/
inductive ModifiersRead (allowed : List Kind) : Stream → List Kind → Stream → Prop where
  | nil (s : Stream) : ModifiersRead allowed s [] s
  | cons {s u : Stream} {ks : List Kind} (mem : s.current.kind ∈ allowed)
      (follows : canFollowModifier s.next.current.kind = true)
      (others : ModifiersRead allowed s.next ks u) :
      ModifiersRead allowed s (s.current.kind :: ks) u

namespace ModifiersRead

variable {allowed allowed' : List Kind} {s u v : Stream} {ks ks' : List Kind}

theorem snoc (h : ModifiersRead allowed s ks u) (mem : u.current.kind ∈ allowed)
    (follows : canFollowModifier u.next.current.kind = true) :
    ModifiersRead allowed s (ks ++ [u.current.kind]) u.next := by
  induction h with
  | nil s => exact .cons mem follows (.nil s.next)
  | cons mem' follows' _ ih => exact .cons mem' follows' (ih mem follows)

/-- Two readings from the same place end in the same place, or one of them goes on with a modifier
where the other ends. -/
theorem compare (h : ModifiersRead allowed s ks u) (g : ModifiersRead allowed' s ks' v) :
    (u = v ∧ ks = ks') ∨
    (∃ rest, u.current.kind ∈ allowed' ∧ canFollowModifier u.next.current.kind = true ∧
      ModifiersRead allowed' u.next rest v ∧ ks' = ks ++ u.current.kind :: rest) ∨
    ∃ rest, v.current.kind ∈ allowed ∧ canFollowModifier v.next.current.kind = true ∧
      ModifiersRead allowed v.next rest u ∧ ks = ks' ++ v.current.kind :: rest := by
  induction h generalizing ks' with
  | nil s =>
    cases g with
    | nil => exact .inl ⟨rfl, rfl⟩
    | cons mem follows others => exact .inr (.inl ⟨_, mem, follows, others, rfl⟩)
  | cons mem follows others ih =>
    cases g with
    | nil => exact .inr (.inr ⟨_, mem, follows, others, rfl⟩)
    | cons _ _ others' =>
      rcases ih others' with ⟨rfl, rfl⟩ | ⟨rest, mem, follows, read, rfl⟩ |
        ⟨rest, mem, follows, read, rfl⟩
      · exact .inl ⟨rfl, rfl⟩
      · exact .inr (.inl ⟨rest, mem, follows, read, rfl⟩)
      · exact .inr (.inr ⟨rest, mem, follows, read, rfl⟩)

end ModifiersRead

/-- Nothing here can be read as a modifier. -/
def Stream.Settled (s : Stream) : Prop :=
  s.current.kind.isModifier = true → canFollowModifier s.next.current.kind = false

/-- Readings that end where there is no modifier end in the same place. -/
theorem ModifiersRead.eq_of_settled {allowed allowed' : List Kind} {s u v : Stream}
    {ks ks' : List Kind} (h : ModifiersRead allowed s ks u) (g : ModifiersRead allowed' s ks' v)
    (modifier : ∀ k ∈ allowed ++ allowed', k.isModifier = true) (hu : u.Settled)
    (hv : v.Settled) : u = v := by
  rcases h.compare g with ⟨rfl, -⟩ | ⟨_, mem, follows, -⟩ | ⟨_, mem, follows, -⟩
  · rfl
  · have stays := hu (modifier _ (List.mem_append_right _ mem))
    exact absurd (follows.symm.trans stays) (by decide)
  · have stays := hv (modifier _ (List.mem_append_left _ mem))
    exact absurd (follows.symm.trans stays) (by decide)

namespace Grammar

variable {d : Nat} {s u : Stream}

theorem atModifier_leads {kinds : Kind → Bool} {x : Bool} (h : (atModifier kinds).Leads d s x u) :
    (x = true → kinds s.current.kind = true ∧ canFollowModifier s.next.current.kind = true) ∧
      s = u := by
  obtain ⟨token, v, here, h⟩ := h.bind
  obtain ⟨rfl, rfl⟩ := here.current
  rcases h.ite with ⟨is, h⟩ | ⟨-, h⟩
  · obtain ⟨⟨w, ahead⟩, rfl⟩ := h.lookAhead
    obtain ⟨_, w, step, ahead⟩ := ahead.bind
    obtain rfl := step.advance
    obtain ⟨next, w, here, ahead⟩ := ahead.bind
    obtain ⟨rfl, rfl⟩ := here.current
    obtain ⟨rfl, -⟩ := ahead.pure
    exact ⟨fun follows => ⟨is, follows⟩, rfl⟩
  · obtain ⟨rfl, rfl⟩ := h.pure
    exact ⟨by simp, rfl⟩

theorem failAtKeyword_leads {α : Type} {m : Message} {a : α} (h : (failAtKeyword m).Leads d s a u) :
    False := by
  obtain ⟨token, v, here, h⟩ := h.bind
  exact h.failHere

theorem refuseModifier_leads {m : Message} {exempted : Kind → Bool} {x : Unit}
    (h : (refuseModifier m exempted).Leads d s x u) : s = u := by
  obtain ⟨found, v, here, h⟩ := h.bind
  obtain ⟨-, rfl⟩ := atModifier_leads here
  rcases h.ite with ⟨-, h⟩ | ⟨-, h⟩
  · exact (failAtKeyword_leads h).elim
  · exact h.pure.2

theorem modifiers_read {allowed : List Kind} {l : Option (List Node)}
    (h : (modifiers allowed).Leads d s l u) :
    ∃ ks, ModifiersRead allowed s ks u ∧ ks.Nodup ∧
      l = if ks.isEmpty then none else some (ks.map .token) := by
  obtain ⟨ks, v, loop, h⟩ := h.bind
  obtain ⟨rfl, rfl⟩ := h.pure
  refine ⟨ks, ?_⟩
  -- the kinds seen so far have been read and differ
  have seen : ModifiersRead allowed s ks v ∧ ks.Nodup := by
    refine Leads.iterate (P := fun ks v => ModifiersRead allowed s ks v ∧ ks.Nodup) ?_ ?_ loop
      ⟨.nil s, List.nodup_nil⟩
    · intro seen ks v w before step
      obtain ⟨found, v', here, step⟩ := step.bind
      obtain ⟨is, rfl⟩ := atModifier_leads here
      rcases step.ite with ⟨found, step⟩ | ⟨-, step⟩
      · obtain ⟨mem, follows⟩ := is found
        obtain ⟨token, v', here, step⟩ := step.bind
        obtain ⟨rfl, rfl⟩ := here.current
        rcases step.ite with ⟨-, step⟩ | ⟨fresh, step⟩
        · exact (failAtKeyword_leads step).elim
        · obtain ⟨_, v', step', step⟩ := step.bind
          obtain rfl := step'.advance
          obtain ⟨eq, rfl⟩ := step.pure
          obtain rfl := Option.some.inj eq
          have fresh : v.current.kind ∉ seen := by simpa using fresh
          refine ⟨before.1.snoc (List.contains_iff_mem.mp mem) follows, ?_⟩
          exact List.nodup_append.mpr ⟨before.2, by simp, by grind⟩
      · cases step.pure.1
    · intro seen v w before step
      obtain ⟨found, v', here, step⟩ := step.bind
      obtain ⟨-, rfl⟩ := atModifier_leads here
      rcases step.ite with ⟨-, step⟩ | ⟨-, step⟩
      · obtain ⟨token, v', here, step⟩ := step.bind
        rcases step.ite with ⟨-, step⟩ | ⟨-, step⟩
        · exact (failAtKeyword_leads step).elim
        · obtain ⟨_, v', step', step⟩ := step.bind
          cases step.pure.1
      · obtain ⟨-, rfl⟩ := step.pure
        exact before
  exact ⟨seen.1, seen.2, rfl⟩

section

variable {o : Options} {allowed ks : List Kind} {v : Stream}

/-- Whether a modifier of one of `kinds` comes next. -/
def nextModifies (kinds : Kind → Bool) (s : Stream) : Bool :=
  kinds s.current.kind && canFollowModifier s.next.current.kind

theorem atModifier_gives (kinds : Kind → Bool) (o : Options) (s : State Nat) :
    (atModifier kinds).Gives o s (nextModifies kinds s.stream) s := by
  unfold nextModifies
  by_cases is : kinds s.stream.current.kind = true
  · have ahead : (lookAhead do
        advance
        return canFollowModifier (← Rule.current).kind).Gives o s
          (canFollowModifier s.stream.next.current.kind) ⟨s.stream, s.next.depth⟩ :=
      .lookAhead (.bind .advance (.bind .current .pure))
    rw [is, Bool.true_and]
    exact .bind .current (.ite_pos is ahead)
  · rw [Bool.eq_false_iff.mpr is, Bool.false_and]
    exact .bind .current (.ite_neg is .pure)

theorem refuseModifier_gives {m : Message} {exempted : Kind → Bool} {s : State Nat}
    (other : nextModifies (fun k => k.isModifier && !exempted k) s.stream = false) :
    (refuseModifier m exempted).Gives o s () s := by
  have found := atModifier_gives (fun k => k.isModifier && !exempted k) o s
  rw [other] at found
  exact .bind found (.ite_neg (by decide) .pure)

/-- Reads a modifier that is there. -/
abbrev modifierRead (seen : List Kind) : Rule Nat (Option (List Kind)) := do
  let k := (← Rule.current).kind
  if seen.contains k then failAtKeyword .modifierRepeated
  else
    advance
    return some (seen ++ [k])

/-- The step of the loop that reads modifiers. -/
abbrev modifierStep (allowed seen : List Kind) : Rule Nat (Option (List Kind)) := do
  if ← atModifier allowed.contains then modifierRead seen else return none

theorem modifiersRead_length {s : Stream} (read : ModifiersRead allowed s ks v)
    (scanned : Scanned s.toList) (ends : allowed.contains .endOfFileToken = false) :
    ks.length ≤ s.ahead.length := by
  induction read with
  | nil => exact Nat.zero_le _
  | @cons s u ks mem _ others ih =>
    have more : s.current.kind ≠ .endOfFileToken := by
      intro last
      rw [last] at mem
      simp [mem] at ends
    have some_ahead := scanned.ahead_ne_nil more
    obtain ⟨first, _ | ⟨second, ahead⟩⟩ := s
    · exact absurd rfl some_ahead
    · exact Nat.succ_le_succ (ih scanned.next)

theorem modifierStep_next {s : State Nat} {seen : List Kind} (mem : s.stream.current.kind ∈ allowed)
    (follows : canFollowModifier s.stream.next.current.kind = true)
    (fresh : s.stream.current.kind ∉ seen) :
    (modifierStep allowed seen).Gives o s (some (seen ++ [s.stream.current.kind])) s.next := by
  have found := atModifier_gives allowed.contains o s
  have is : nextModifies allowed.contains s.stream = true := by simp [nextModifies, mem, follows]
  rw [is] at found
  exact .bind found (.ite_pos rfl (.bind .current (.ite_neg (by simpa using fresh)
    (.bind .advance .pure))))

theorem modifierStep_stop {s : State Nat} {seen : List Kind}
    (stop : nextModifies allowed.contains s.stream = false) :
    (modifierStep allowed seen).Gives o s none s := by
  have found := atModifier_gives allowed.contains o s
  rw [stop] at found
  exact .bind found (.ite_neg (by decide) .pure)

theorem modifierSteps_gives {s : State Nat} (read : ModifiersRead allowed s.stream ks v)
    (stop : nextModifies allowed.contains v = false) {seen : List Kind} (nodup : (seen ++ ks).Nodup)
    {budget : Budget} (enough : ks.length < budget.length) :
    iterateWithin (modifierStep allowed) budget seen o s = (.ok (seen ++ ks), ⟨v, s.depth⟩) := by
  obtain ⟨s, depth⟩ := s
  simp only at read
  induction read generalizing seen budget with
  | nil s =>
    obtain _ | ⟨_, budget⟩ := budget
    · exact absurd enough (Nat.not_lt_zero _)
    rw [List.append_nil]
    exact Gives.iterateWithin_stop (modifierStep_stop stop)
  | @cons s u ks mem follows others ih =>
    obtain _ | ⟨_, budget⟩ := budget
    · exact absurd enough (Nat.not_lt_zero _)
    have fresh : s.current.kind ∉ seen := fun seen =>
      (List.nodup_append.mp nodup).2.2 _ seen _ List.mem_cons_self rfl
    refine Gives.iterateWithin_next (modifierStep_next mem follows fresh) ?_
    have nodup' : (seen ++ [s.current.kind] ++ ks).Nodup := by simpa using nodup
    have rest := ih stop nodup' (Nat.lt_of_succ_lt_succ enough)
    rwa [List.append_assoc] at rest

theorem modifiers_gives {s : State Nat} (read : ModifiersRead allowed s.stream ks v)
    (stop : nextModifies allowed.contains v = false) (nodup : ks.Nodup)
    (scanned : Scanned s.stream.toList) (ends : allowed.contains .endOfFileToken = false) :
    (modifiers allowed).Gives o s (if ks.isEmpty then none else some (ks.map .token))
      ⟨v, s.depth⟩ := by
  have enough : ks.length < s.stream.toList.length :=
    Nat.lt_succ_of_le (modifiersRead_length read scanned ends)
  have loop : (iterate (modifierStep allowed) []).Gives o s ks ⟨v, s.depth⟩ :=
    modifierSteps_gives read stop (show ([] ++ ks).Nodup from nodup) enough
  exact .bind loop .pure

end

end Grammar

end Ambient

import DlcStack.EffectSimulation

/-!
# Programs that own a part of the state

Several steps of one program may carry out one step of another, if nobody sees the states in
between.  Here a relation says which moves of the others a program is exposed to, and what it
has done so far is known of its own part of the state.  Parties that leave to each other what
is theirs carry out what they carry out alone.
-/

namespace Program

variable {Req Req' : Type} {Ans : Req → Type} {Ans' : Req' → Type} {α β σ σ' : Type}

/-- From these states the first program carries out the second, while others move the state
of the first. -/
def CarriesOutFrom (env' : Environment σ' Req' Ans') (env : Environment σ Req Ans)
    (moves : σ' → σ' → Prop) (related : σ → σ' → Prop) :
    Program Req' Ans' α → Program Req Ans α → σ → σ' → Prop
  | ret value, specified, state, state' =>
      ∃ after, Reaches env specified state (ret value) after ∧ related after state'
  | ask request next, specified, state, state' =>
      ∀ before, moves state' before → ∀ answer after, env' before request answer after →
        ∃ specified' middle, Reaches env specified state specified' middle ∧
          CarriesOutFrom env' env moves related (next answer) specified' middle after

section CarriesOutFrom

variable {env' : Environment σ' Req' Ans'} {env : Environment σ Req Ans}
  {moves : σ' → σ' → Prop} {related : σ → σ' → Prop} {program : Program Req' Ans' α}
  {specified specified' : Program Req Ans α} {state middle : σ} {state' : σ'}

theorem CarriesOutFrom.of_reaches (reaches : Reaches env specified state specified' middle)
    (carries : CarriesOutFrom env' env moves related program specified' middle state') :
    CarriesOutFrom env' env moves related program specified state state' := by
  cases program with
  | ret value =>
      obtain ⟨after, later, holds⟩ := carries
      exact ⟨after, reaches.trans later, holds⟩
  | ask request next =>
      intro before moved answer after served
      obtain ⟨specified'', middle', later, carries⟩ := carries before moved answer after served
      exact ⟨specified'', middle', reaches.trans later, carries⟩

/-- What has been carried out so far is so after a move of the others. -/
theorem CarriesOutFrom.moved {later : σ'}
    (trans : ∀ first second third, moves first second → moves second third → moves first third)
    (stable : ∀ state first second, related state first → moves first second →
      related state second)
    (carries : CarriesOutFrom env' env moves related program specified state state')
    (moved : moves state' later) :
    CarriesOutFrom env' env moves related program specified state later := by
  cases program with
  | ret value =>
      obtain ⟨after, reaches, holds⟩ := carries
      exact ⟨after, reaches, stable after _ _ holds moved⟩
  | ask request next =>
      intro before further
      exact carries before (trans _ _ _ moved further)

/-- A program that carries out another whatever happens in between. -/
theorem CarriesOut.fromStates
    (stable : ∀ state first second, related state first → moves first second →
      related state second)
    (carries : CarriesOut env' env related program specified)
    (holds : related state state') :
    CarriesOutFrom env' env moves related program specified state state' := by
  induction program generalizing specified state state' with
  | ret value => exact carries state state' holds
  | ask request next ih =>
      intro before moved answer after served
      obtain ⟨specified', middle, reaches, holds, later⟩ :=
        carries state before (stable _ _ _ holds moved) answer after served
      exact ⟨specified', middle, reaches, ih answer later holds⟩

theorem CarriesOutFrom.bind {rest' : α → Program Req' Ans' β} {rest : α → Program Req Ans β}
    (first : CarriesOutFrom env' env moves related program specified state state')
    (second : ∀ value state state', related state state' →
      CarriesOutFrom env' env moves related (rest' value) (rest value) state state') :
    CarriesOutFrom env' env moves related (program >>= rest') (specified >>= rest) state
      state' := by
  induction program generalizing specified state state' with
  | ret value =>
      obtain ⟨after, reaches, holds⟩ := first
      exact (second value after state' holds).of_reaches (reaches.bind rest)
  | ask request next ih =>
      intro before moved answer after served
      obtain ⟨specified', middle, reaches, later⟩ := first before moved answer after served
      exact ⟨specified' >>= rest, middle, reaches.bind rest, ih answer later⟩

/-- A program each of whose requests is carried out is carried out. -/
theorem carriesOutFrom_expand {carryOut : (request : Req) → Program Req' Ans' (Ans request)}
    (each : ∀ request state state', related state state' →
      CarriesOutFrom env' env moves related (carryOut request) (perform request) state state')
    (source : Program Req Ans α) (holds : related state state') :
    CarriesOutFrom env' env moves related (source.expand carryOut) source state state' := by
  induction source generalizing state state' with
  | ret value => exact ⟨state, .refl, holds⟩
  | ask request next ih =>
      exact (each request state state' holds).bind fun answer state state' holds =>
        ih answer holds

/-- With other requests beside its own a program carries out the same. -/
theorem CarriesOutFrom.amid_left {Side : Type} {SideAns : Side → Type}
    (carries : CarriesOutFrom env' env moves related program specified state state')
    (side' : Environment σ' Side SideAns) :
    CarriesOutFrom (beside env' side') env moves related program.amid specified state
      state' := by
  induction program generalizing specified state state' with
  | ret value => exact carries
  | ask request next ih =>
      intro before moved answer after served
      obtain ⟨specified', middle, reaches, later⟩ := carries before moved answer after served
      exact ⟨specified', middle, reaches, ih answer later⟩

end CarriesOutFrom

/-! ## Requests of carried out programs -/

section Asks

variable {allowed : Req' → Prop}

theorem asks_expand {carryOut : (request : Req) → Program Req' Ans' (Ans request)}
    (each : ∀ request, Asks allowed (carryOut request)) (program : Program Req Ans α) :
    Asks allowed (program.expand carryOut) := by
  induction program with
  | ret value => trivial
  | ask request next ih => exact asks_bind (each request) ih

theorem asks_amid {Side : Type} {SideAns : Side → Type} {side : Side → Prop}
    {program : Program Req' Ans' α} (asks : Asks allowed program) :
    Asks (Sum.elim allowed side)
      (program.amid : Program (Req' ⊕ Side) (Sum.elim Ans' SideAns) α) := by
  induction program with
  | ret value => trivial
  | ask request next ih => exact ⟨asks.1, fun answer => ih answer (asks.2 answer)⟩

end Asks

/-! ## Parties at the same time -/

section Parties

variable {Party : Type} [DecidableEq Party] {env' : Environment σ' Req' Ans'}
  {env : Party → Environment σ Req Ans} {moves : Party → σ' → σ' → Prop}
  {related : Party → σ → σ' → Prop} {allowed : Party → Req' → Prop}

/-- What a party may do leaves to the others what is theirs. -/
structure Apart (env' : Environment σ' Req' Ans') (moves : Party → σ' → σ' → Prop)
    (related : Party → σ → σ' → Prop) (allowed : Party → Req' → Prop) : Prop where
  refl : ∀ party state, moves party state state
  trans : ∀ party first second third, moves party first second → moves party second third →
    moves party first third
  stable : ∀ party state first second, related party state first →
    moves party first second → related party state second
  frame : ∀ party request, allowed party request → ∀ before answer after,
    env' before request answer after → ∀ other, other ≠ party → moves other before after

/-- How far the parties have come: each may have been left behind by moves of the others. -/
def Abreast (env' : Environment σ' Req' Ans') (env : Party → Environment σ Req Ans)
    (moves : Party → σ' → σ' → Prop) (related : Party → σ → σ' → Prop)
    (current' : Pool Party σ' Req' Ans' α)
    (current : Pool Party (Party → σ) (Party × Req) (fun request => Ans request.2) α)
    (states : Party → σ) (state' : σ') (party : Party) : Prop :=
  ∃ specified, (current party).program = specified.ofParty party ∧
    CarriesOutFrom env' (env party) (moves party) (related party) (current' party).program specified
      (states party) state'

variable {pool' current' : Pool Party σ' Req' Ans' α} {start final : σ'}
  {trace' : List (Party × Step σ' Req' Ans')}
  {pool : Pool Party (Party → σ) (Party × Req) (fun request => Ans request.2) α}
  {states : Party → σ}

/-- Parties that leave to each other what is theirs carry out at the same time what they
carry out alone. -/
theorem Interleaved.carriesOutFrom (separate : Apart env' moves related allowed)
    (run : Interleaved env' AnyStep pool' start trace' current' final)
    (asks : ∀ party, Asks (allowed party) (pool' party).program)
    (each : ∀ party, Abreast env' env moves related pool' pool states start party) :
    ∃ trace current after, Interleaved (apart env) AnyStep pool states trace current
        after ∧
      (∀ party, Asks (allowed party) (current' party).program) ∧
      ∀ party, Abreast env' env moves related current' current after final party := by
  induction run with
  | idle => exact ⟨[], pool, states, .idle, asks, each⟩
  | @move trace' current' before after party request next answer _ isAsk served _ ih =>
      obtain ⟨trace, current, middle, run, asks, each⟩ := ih
      have mayAsk := asks party
      rw [isAsk] at mayAsk
      obtain ⟨specified, here, carries⟩ := each party
      rw [isAsk] at carries
      obtain ⟨specified', state, reaches, later⟩ :=
        carries before (separate.refl party before) answer after served
      obtain ⟨trace, current'', run, moved, others⟩ := run.reaches (reaches.ofParty rfl) here
      refine ⟨trace, current'', _, run, fun other => ?_, fun other => ?_⟩
      · by_cases same : other = party
        · subst same
          rw [Pool.advance_same]
          exact mayAsk.2 answer
        · rw [Pool.advance_other _ same]
          exact asks other
      · by_cases same : other = party
        · subst same
          refine ⟨specified', moved, ?_⟩
          rw [Pool.advance_same, Function.update_self]
          exact later
        · obtain ⟨specified, there, carries⟩ := each other
          refine ⟨specified, (others other same).trans there, ?_⟩
          rw [Pool.advance_other _ same, Function.update_of_ne same]
          exact carries.moved (separate.trans other) (separate.stable other)
            (separate.frame party request mayAsk.1 before answer after served other same)

/-- What the parties among them have returned, the others can have returned too, with what
is related to the final state. -/
theorem Interleaved.carriesOutFrom_returned (separate : Apart env' moves related allowed)
    (run : Interleaved env' AnyStep pool' start trace' current' final)
    (asks : ∀ party, Asks (allowed party) (pool' party).program)
    (each : ∀ party, Abreast env' env moves related pool' pool states start party)
    (watched : List Party) :
    ∃ trace current after, Interleaved (apart env) AnyStep pool states trace current
        after ∧
      (∀ party, Abreast env' env moves related current' current after final party) ∧
      ∀ party ∈ watched, ∀ value, (current' party).program = ret value →
        (current party).program = ret value ∧ related party (after party) final := by
  induction watched with
  | nil =>
      obtain ⟨trace, current, after, run, -, each⟩ := run.carriesOutFrom separate asks each
      exact ⟨trace, current, after, run, each, by simp⟩
  | cons party rest ih =>
      obtain ⟨trace, current, after, run, each, returned⟩ := ih
      cases ends : (current' party).program with
      | ask request next =>
          refine ⟨trace, current, after, run, each, fun other member value isEnd => ?_⟩
          rcases List.mem_cons.mp member with rfl | member
          · cases ends.symm.trans isEnd
          · exact returned other member value isEnd
      | ret value =>
          obtain ⟨specified, here, carries⟩ := each party
          rw [ends] at carries
          obtain ⟨state, reaches, holds⟩ := carries
          obtain ⟨trace, current'', run, moved, others⟩ := run.reaches (reaches.ofParty rfl) here
          refine ⟨trace, current'', _, run, fun other => ?_, fun other member value' isEnd => ?_⟩
          · by_cases same : other = party
            · subst same
              refine ⟨ret value, moved, ?_⟩
              rw [ends, Function.update_self]
              exact ⟨state, .refl, holds⟩
            · obtain ⟨specified, there, carries⟩ := each other
              refine ⟨specified, (others other same).trans there, ?_⟩
              rw [Function.update_of_ne same]
              exact carries
          · by_cases same : other = party
            · subst same
              obtain rfl := Program.ret.inj (ends.symm.trans isEnd)
              rw [Function.update_self]
              exact ⟨moved, holds⟩
            · rw [Function.update_of_ne same, others other same]
              exact returned other ((List.mem_cons.mp member).resolve_left same) value' isEnd

end Parties

end Program

import DlcStack.EffectParties
import DlcStack.EffectProjection

/-!
# Programs that carry out other programs

A program over one environment carries out a program over another if, whatever it is
answered, the other can keep up: after each of its steps the other has taken some steps,
possibly none, to a state that is related to its own.  The relation is all that is known
of the two states in between, so it may be kept by other programs too, and what runs at
the same time carries out what runs at the same time.
-/

namespace Program

variable {Req Req' : Type} {Ans : Req → Type} {Ans' : Req' → Type} {α β σ σ' ι : Type}

/-- Some steps of a program alone. -/
inductive Reaches (env : Environment σ Req Ans) :
    Program Req Ans α → σ → Program Req Ans α → σ → Prop
  | refl {program : Program Req Ans α} {state : σ} : Reaches env program state program state
  | step {request : Req} {next : Ans request → Program Req Ans α} {answer : Ans request}
      {before middle after : σ} {program : Program Req Ans α}
      (served : env before request answer middle)
      (later : Reaches env (next answer) middle program after) :
      Reaches env (ask request next) before program after

section Reaches

variable {env : Environment σ Req Ans} {first second third : Program Req Ans α}
  {before middle after : σ}

theorem Reaches.trans (front : Reaches env first before second middle)
    (back : Reaches env second middle third after) :
    Reaches env first before third after := by
  induction front with
  | refl => exact back
  | step served _ ih => exact .step served (ih back)

theorem Reaches.one {request : Req} {next : Ans request → Program Req Ans α}
    {answer : Ans request} (served : env before request answer after) :
    Reaches env (ask request next) before (next answer) after :=
  .step served .refl

/-- Where the environment allows more, a program takes the same steps. -/
theorem Reaches.mono {more : Environment σ Req Ans}
    (reaches : Reaches env first before second after)
    (allows : ∀ before request answer after, env before request answer after →
      more before request answer after) :
    Reaches more first before second after := by
  induction reaches with
  | refl => exact .refl
  | step served _ ih => exact .step (allows _ _ _ _ served) ih

theorem Reaches.bind (reaches : Reaches env first before second after)
    (rest : α → Program Req Ans β) :
    Reaches env (first >>= rest) before (second >>= rest) after := by
  induction reaches with
  | refl => exact .refl
  | step served _ ih => exact .step served ih

/-- In an interleaving a program takes its steps alone. -/
theorem Interleaved.reaches [DecidableEq ι] {pool current : Pool ι σ Req Ans α} {start : σ}
    {trace : List (ι × Step σ Req Ans)}
    (run : Interleaved env AnyStep pool start trace current before) {index : ι}
    (reaches : Reaches env first before second after)
    (runs : (current index).program = first) :
    ∃ trace' current', Interleaved env AnyStep pool start trace' current' after ∧
      (current' index).program = second ∧
        ∀ other, other ≠ index → (current' other).program = (current other).program := by
  induction reaches generalizing trace current with
  | refl => exact ⟨trace, current, run, runs, fun _ _ => rfl⟩
  | step served _ ih =>
      obtain ⟨trace', current', run', ends, others⟩ :=
        ih (run.move runs served trivial) (by rw [Pool.advance_same])
      refine ⟨trace', current', run', ends, fun other different => ?_⟩
      rw [others other different, Pool.advance_other _ different]

/-- One program waits while another does its work. -/
theorem interleaved_overtaking [DecidableEq ι] {programs : ι → Program Req Ans α}
    {waiting ended overtaken : Program Req Ans α} {start middle later final : σ}
    {index other : ι} (different : index ≠ other)
    (begins : Reaches env (programs index) start waiting middle)
    (overtakes : Reaches env (programs other) middle overtaken later)
    (ends : Reaches env waiting later ended final) :
    ∃ trace current, Interleaved env AnyStep (fun index => Thread.start (programs index)) start
        trace current final ∧
      (current index).program = ended ∧ (current other).program = overtaken := by
  have unmoved : Interleaved env AnyStep (fun index => Thread.start (programs index)) start [] _
    start := .idle
  obtain ⟨_, _, run, waits, others⟩ := unmoved.reaches begins rfl
  obtain ⟨_, _, run, overtook, kept⟩ := run.reaches overtakes (others other different.symm)
  obtain ⟨trace, current, run, isEnd, still⟩ :=
    run.reaches ends ((kept index different).trans waits)
  exact ⟨trace, current, run, isEnd, (still other different.symm).trans overtook⟩

end Reaches

/-- Let a program make some requests of a responder. -/
def forward (responder : Responder σ Req Ans) :
    Nat → Program Req Ans α → σ → Program Req Ans α × σ
  | 0, program, state => (program, state)
  | _ + 1, ret value, state => (ret value, state)
  | turns + 1, ask request next, state =>
      (next (responder state request).1).forward responder turns (responder state request).2

theorem reaches_forward {env : Environment σ Req Ans} (responder : Responder σ Req Ans)
    (allowed : ∀ state request,
      env state request (responder state request).1 (responder state request).2)
    (turns : Nat) (program : Program Req Ans α) (state : σ) :
    Reaches env program state (program.forward responder turns state).1
      (program.forward responder turns state).2 := by
  induction turns generalizing program state with
  | zero => exact .refl
  | succ turns ih =>
      cases program with
      | ret value => exact .refl
      | ask request next => exact .step (allowed state request) (ih _ _)

/-- The first program carries out the second. -/
def CarriesOut (env' : Environment σ' Req' Ans') (env : Environment σ Req Ans)
    (related : σ → σ' → Prop) : Program Req' Ans' α → Program Req Ans α → Prop
  | ret value, specified =>
      ∀ state state', related state state' →
        ∃ after, Reaches env specified state (ret value) after ∧ related after state'
  | ask request next, specified =>
      ∀ state before, related state before →
        ∀ answer after, env' before request answer after →
          ∃ specified' state', Reaches env specified state specified' state' ∧
            related state' after ∧ CarriesOut env' env related (next answer) specified'

section CarriesOut

variable {env' : Environment σ' Req' Ans'} {env : Environment σ Req Ans}
  {related : σ → σ' → Prop} {program : Program Req' Ans' α}
  {specified specified' : Program Req Ans α}

theorem carriesOut_ret (value : α) :
    CarriesOut env' env related (ret value) (ret value : Program Req Ans α) :=
  fun state _ holds => ⟨state, .refl, holds⟩

/-- Where the environment allows less, a program carries out as much. -/
theorem CarriesOut.mono {less : Environment σ' Req' Ans'}
    (carries : CarriesOut env' env related program specified)
    (allows : ∀ before request answer after, less before request answer after →
      env' before request answer after) :
    CarriesOut less env related program specified := by
  induction program generalizing specified with
  | ret value => exact carries
  | ask request next ih =>
      intro state before holds answer after served
      obtain ⟨specified', state', reaches, holds, later⟩ :=
        carries state before holds answer after (allows _ _ _ _ served)
      exact ⟨specified', state', reaches, holds, ih answer later⟩

/-- Where the environment of the other program allows more, the other keeps up. -/
theorem CarriesOut.widen {more : Environment σ Req Ans}
    (carries : CarriesOut env' env related program specified)
    (allows : ∀ before request answer after, env before request answer after →
      more before request answer after) :
    CarriesOut env' more related program specified := by
  induction program generalizing specified with
  | ret value =>
      intro state state' holds
      obtain ⟨after, reaches, holds⟩ := carries state state' holds
      exact ⟨after, reaches.mono allows, holds⟩
  | ask request next ih =>
      intro state before holds answer after served
      obtain ⟨specified', state', reaches, holds, later⟩ :=
        carries state before holds answer after served
      exact ⟨specified', state', reaches.mono allows, holds, ih answer later⟩

/-- The other program may be ahead by some steps. -/
theorem CarriesOut.of_reaches
    (ahead : ∀ state state', related state state' →
      ∃ after, Reaches env specified state specified' after ∧ related after state')
    (carries : CarriesOut env' env related program specified') :
    CarriesOut env' env related program specified := by
  cases program with
  | ret value =>
      intro state state' holds
      obtain ⟨middle, first, holds⟩ := ahead state state' holds
      obtain ⟨after, second, holds⟩ := carries middle state' holds
      exact ⟨after, first.trans second, holds⟩
  | ask request next =>
      intro state before holds answer after served
      obtain ⟨middle, first, holds⟩ := ahead state before holds
      obtain ⟨specified', state', second, holds, later⟩ :=
        carries middle before holds answer after served
      exact ⟨specified', state', first.trans second, holds, later⟩

/-- A step after which the other program is where it was. -/
theorem carriesOut_ask_silent {request : Req'}
    {next : Ans' request → Program Req' Ans' α}
    (silent : ∀ state before, related state before → ∀ answer after,
      env' before request answer after →
        related state after ∧ CarriesOut env' env related (next answer) specified) :
    CarriesOut env' env related (ask request next) specified := by
  intro state before holds answer after served
  obtain ⟨kept, later⟩ := silent state before holds answer after served
  exact ⟨specified, state, .refl, kept, later⟩

theorem CarriesOut.bind {rest' : α → Program Req' Ans' β} {rest : α → Program Req Ans β}
    (first : CarriesOut env' env related program specified)
    (second : ∀ value, CarriesOut env' env related (rest' value) (rest value)) :
    CarriesOut env' env related (program >>= rest') (specified >>= rest) := by
  induction program generalizing specified with
  | ret value =>
      refine CarriesOut.of_reaches (fun state state' holds => ?_) (second value)
      obtain ⟨after, reaches, holds⟩ := first state state' holds
      exact ⟨after, reaches.bind rest, holds⟩
  | ask request next ih =>
      intro state before holds answer after served
      obtain ⟨specified', state', reaches, holds, later⟩ :=
        first state before holds answer after served
      exact ⟨specified' >>= rest, state', reaches.bind rest, holds, ih answer later⟩

/-- Programs that carry out the same requests carry out each other if they do so for each
request. -/
theorem CarriesOut.expand {Req₀ : Type} {Ans₀ : Req₀ → Type} {allowed : Req₀ → Prop}
    {carryOut' : (request : Req₀) → Program Req' Ans' (Ans₀ request)}
    {carryOut : (request : Req₀) → Program Req Ans (Ans₀ request)}
    (each : ∀ request, allowed request →
      CarriesOut env' env related (carryOut' request) (carryOut request))
    {source : Program Req₀ Ans₀ α} (asks : Asks allowed source) :
    CarriesOut env' env related (source.expand carryOut') (source.expand carryOut) := by
  induction source with
  | ret value => exact carriesOut_ret value
  | ask request next ih =>
      exact CarriesOut.bind (each request asks.1) fun answer => ih answer (asks.2 answer)

theorem expand_bind {carryOut : (request : Req) → Program Req' Ans' (Ans request)}
    (program : Program Req Ans α) (rest : α → Program Req Ans β) :
    (program >>= rest).expand carryOut =
      program.expand carryOut >>= fun value => (rest value).expand carryOut := by
  induction program with
  | ret value => rfl
  | ask request next ih =>
      have later : (fun answer => (next answer >>= rest).expand carryOut) = fun answer =>
          (next answer).expand carryOut >>= fun value => (rest value).expand carryOut :=
        funext ih
      change carryOut request >>= _ = (carryOut request >>= _) >>= _
      rw [bind_assoc]
      exact congrArg (carryOut request >>= ·) later

end CarriesOut

section Interleaved

variable [DecidableEq ι] {env' : Environment σ' Req' Ans'} {env : Environment σ Req Ans}
  {related : σ → σ' → Prop} {meets : Pool ι σ' Req' Ans' α → ι → Step σ' Req' Ans' → Prop}
  {pool' current' : Pool ι σ' Req' Ans' α} {pool : Pool ι σ Req Ans α} {state : σ}
  {start final : σ'} {trace' : List (ι × Step σ' Req' Ans')}

/-- Programs that run at the same time carry out programs that run at the same time. -/
theorem Interleaved.carriesOut (run : Interleaved env' meets pool' start trace' current' final)
    (initially : related state start)
    (each : ∀ index, CarriesOut env' env related (pool' index).program (pool index).program) :
    ∃ trace current after, Interleaved env AnyStep pool state trace current after ∧
      related after final ∧
        ∀ index, CarriesOut env' env related (current' index).program
          (current index).program := by
  induction run with
  | idle => exact ⟨[], pool, state, .idle, initially, each⟩
  | @move trace' current' before after index request next answer _ asks served _ ih =>
      obtain ⟨trace, current, middle, run, holds, each⟩ := ih
      have here := each index
      rw [asks] at here
      obtain ⟨specified, middle', reaches, holds, later⟩ :=
        here middle before holds answer after served
      obtain ⟨trace, current'', run, moved, others⟩ := run.reaches reaches rfl
      refine ⟨trace, current'', middle', run, holds, fun other => ?_⟩
      by_cases same : other = index
      · subst same
        rw [Pool.advance_same, moved]
        exact later
      · rw [Pool.advance_other _ same, others other same]
        exact each other

/-- What the programs among them have returned, the others can have returned too. -/
theorem Interleaved.carriesOut_returned
    (run : Interleaved env' meets pool' start trace' current' final)
    (initially : related state start)
    (each : ∀ index, CarriesOut env' env related (pool' index).program (pool index).program)
    (watched : List ι) :
    ∃ trace current after, Interleaved env AnyStep pool state trace current after ∧
      related after final ∧
        (∀ index, CarriesOut env' env related (current' index).program
          (current index).program) ∧
        ∀ index ∈ watched, ∀ value, (current' index).program = ret value →
          (current index).program = ret value := by
  induction watched with
  | nil =>
      obtain ⟨trace, current, after, run, holds, each⟩ := run.carriesOut initially each
      exact ⟨trace, current, after, run, holds, each, by simp⟩
  | cons index rest ih =>
      obtain ⟨trace, current, after, run, holds, each, returned⟩ := ih
      cases ends : (current' index).program with
      | ask request next =>
          refine ⟨trace, current, after, run, holds, each, fun other member value isEnd => ?_⟩
          rcases List.mem_cons.mp member with rfl | member
          · cases ends.symm.trans isEnd
          · exact returned other member value isEnd
      | ret value =>
          have here := each index
          rw [ends] at here
          obtain ⟨after', reaches, holds⟩ := here after final holds
          obtain ⟨trace, current'', run, moved, others⟩ := run.reaches reaches rfl
          refine ⟨trace, current'', after', run, holds, fun other => ?_,
            fun other member value' isEnd => ?_⟩
          · by_cases same : other = index
            · subst same
              rw [ends, moved]
              exact carriesOut_ret value
            · rw [others other same]
              exact each other
          · by_cases same : other = index
            · subst same
              obtain rfl := Program.ret.inj (ends.symm.trans isEnd)
              exact moved
            · rw [others other same]
              exact returned other ((List.mem_cons.mp member).resolve_left same) value' isEnd

end Interleaved

/-! ## Requests on the side -/

section Beside

variable {Side : Type} {SideAns : Side → Type}

/-- An environment that answers some more requests. -/
def beside (env : Environment σ Req Ans) (side : Environment σ Side SideAns) :
    Environment σ (Req ⊕ Side) (Sum.elim Ans SideAns)
  | before, .inl request, answer, after => env before request answer after
  | before, .inr request, answer, after => side before request answer after

/-- The program where some more requests could be made. -/
def amid (program : Program Req Ans α) :
    Program (Req ⊕ Side) (Sum.elim Ans SideAns) α :=
  program.relabel Sum.inl fun _ => id

/-- The requests on the side are made as they are. -/
def carryAmid (carryOut : (request : Req) → Program Req' Ans' (Ans request)) :
    (request : Req ⊕ Side) →
      Program (Req' ⊕ Side) (Sum.elim Ans' SideAns) (Sum.elim Ans SideAns request)
  | .inl request => (carryOut request).amid
  | .inr request => @perform (Req' ⊕ Side) (Sum.elim Ans' SideAns) (.inr request)

theorem amid_bind (program : Program Req Ans α) (rest : α → Program Req Ans β) :
    ((program.bind rest).amid : Program (Req ⊕ Side) (Sum.elim Ans SideAns) β) =
      program.amid.bind fun value => (rest value).amid := by
  induction program with
  | ret value => rfl
  | ask request next ih =>
      exact congrArg (@ask (Req ⊕ Side) (Sum.elim Ans SideAns) β (.inl request)) (funext ih)

theorem expand_amid (carryOut : (request : Req) → Program Req' Ans' (Ans request))
    (program : Program Req Ans α) :
    (program.amid : Program (Req ⊕ Side) (Sum.elim Ans SideAns) α).expand
      (carryAmid carryOut) = (program.expand carryOut).amid := by
  induction program with
  | ret value => rfl
  | ask request next ih =>
      refine Eq.trans ?_ (amid_bind (carryOut request) fun answer =>
        (next answer).expand carryOut).symm
      exact congrArg ((carryOut request).amid.bind) (funext ih)

variable {env' : Environment σ' Req' Ans'} {env : Environment σ Req Ans}
  {related : σ → σ' → Prop} {program : Program Req' Ans' α} {specified : Program Req Ans α}

theorem CarriesOut.amid_left (carries : CarriesOut env' env related program specified)
    (side' : Environment σ' Side SideAns) :
    CarriesOut (beside env' side') env related program.amid specified := by
  induction program generalizing specified with
  | ret value => exact carries
  | ask request next ih =>
      intro state before holds answer after served
      obtain ⟨specified', state', reaches, holds, later⟩ :=
        carries state before holds answer after served
      exact ⟨specified', state', reaches, holds, ih answer later⟩

theorem Reaches.amid {first second : Program Req Ans α} {before after : σ}
    (reaches : Reaches env first before second after) (side : Environment σ Side SideAns) :
    Reaches (beside env side) first.amid before second.amid after := by
  induction reaches with
  | refl => exact .refl
  | @step request next answer before middle after program served _ ih =>
      have asked : beside env side before (.inl request) answer middle := served
      exact .step asked ih

theorem CarriesOut.amid_right (carries : CarriesOut env' env related program specified)
    (side : Environment σ Side SideAns) :
    CarriesOut env' (beside env side) related program specified.amid := by
  induction program generalizing specified with
  | ret value =>
      intro state state' holds
      obtain ⟨after, reaches, holds⟩ := carries state state' holds
      exact ⟨after, reaches.amid side, holds⟩
  | ask request next ih =>
      intro state before holds answer after served
      obtain ⟨specified', state', reaches, holds, later⟩ :=
        carries state before holds answer after served
      exact ⟨specified'.amid, state', reaches.amid side, holds, ih answer later⟩

/-- A request on the side that is answered alike. -/
theorem carriesOut_side {side' : Environment σ' Side SideAns} {request : Side}
    {specified : Program Req Ans (SideAns request)}
    (answered : ∀ state before, related state before → ∀ answer after,
      side' before request answer after →
        ∃ state', Reaches env specified state (ret answer) state' ∧ related state' after) :
    CarriesOut (beside env' side') env related
      (@perform (Req' ⊕ Side) (Sum.elim Ans' SideAns) (.inr request)) specified := by
  intro state before holds answer after served
  obtain ⟨state', reaches, holds⟩ := answered state before holds answer after served
  exact ⟨ret answer, state', reaches, holds, carriesOut_ret answer⟩

end Beside

/-! ## Several parties -/

section Parties

variable {Party : Type}

/-- The program of a party, request by request. -/
theorem expand_ofParty (party : Party) (program : Program Req Ans α) :
    program.expand (fun request => @perform (Party × Req) (fun request => Ans request.2)
      (party, request)) = program.ofParty party := by
  induction program with
  | ret value => rfl
  | ask request next ih =>
      exact congrArg (@ask (Party × Req) (fun request => Ans request.2) α (party, request))
        (funext ih)

variable [DecidableEq Party] {env' : Environment σ' Req' Ans'}
  {env : Party → Environment σ Req Ans} {related : Party → σ → σ' → Prop}
  {allowed : Req' → Prop} {party : Party}

/-- A party moves its own state. -/
theorem Reaches.ofParty {first second : Program Req Ans α} {states : Party → σ}
    {before after : σ} (reaches : Reaches (env party) first before second after)
    (own : states party = before) :
    Reaches (apart env) (first.ofParty party) states (second.ofParty party)
      (Function.update states party after) := by
  induction reaches generalizing states with
  | refl =>
      rw [← own, Function.update_eq_self]
      exact .refl
  | @step request next answer before middle after program served _ ih =>
      have asked : apart env states (party, request) answer
          (Function.update states party middle) := by
        constructor
        · change env party (states party) request answer _
          rw [own, Function.update_self]
          exact served
        · intro other different
          exact Function.update_of_ne different ..
      have later := ih (Function.update_self party middle states)
      rw [Function.update_idem] at later
      exact .step asked later

variable (env related) in
/-- A program that carries out the program of a party, and leaves to the others what is
theirs, carries it out among all parties. -/
theorem CarriesOut.ofParty {program : Program Req' Ans' α} {specified : Program Req Ans α}
    (frame : ∀ request, allowed request → ∀ before answer after,
      env' before request answer after → ∀ other, other ≠ party → ∀ state,
        related other state before → related other state after)
    (asks : Asks allowed program)
    (carries : CarriesOut env' (env party) (related party) program specified) :
    CarriesOut env' (apart env)
      (fun states state' => ∀ party, related party (states party) state') program
      (specified.ofParty party) := by
  have moved {states : Party → σ} {after : σ} {state' : σ'} (own : related party after state')
      (others : ∀ other, other ≠ party → related other (states other) state') :
      ∀ other, related other (Function.update states party after other) state' := by
    intro other
    by_cases same : other = party
    · subst same
      rw [Function.update_self]
      exact own
    · rw [Function.update_of_ne same]
      exact others other same
  induction program generalizing specified with
  | ret value =>
      intro states state' holds
      obtain ⟨after, reaches, own⟩ := carries (states party) state' (holds party)
      exact ⟨_, reaches.ofParty rfl, moved own fun other _ => holds other⟩
  | ask request next ih =>
      intro states before holds answer after served
      obtain ⟨specified', state', reaches, own, later⟩ :=
        carries (states party) before (holds party) answer after served
      refine ⟨specified'.ofParty party, _, reaches.ofParty rfl, moved own ?_,
        ih answer (asks.2 answer) later⟩
      intro other different
      exact frame request asks.1 before answer after served other different _ (holds other)

end Parties

end Program

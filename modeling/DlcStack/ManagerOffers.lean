import DlcStack.EffectSessions
import DlcStack.ManagerMessages
import DlcStack.ManagerPeriodicCheck

/-!
# The announcements of an offer

`send_offer` asks the attestors of every contract info for an announcement and
hands the answers to the crate as a matrix.  The matrix has the shape of the
contract infos, but all its announcements are for the event of the first one.
-/

namespace DlcStack

namespace LinkManager

open Program

/-- An oracle answered with its announcement for an event. -/
def AnnouncedFor (steps : List WalletStep) (oracle : PublicKey) (eventId : String)
    (announcement : OracleAnnouncement) : Prop :=
  ∃ before after,
    ⟨before, .getAnnouncement oracle eventId, .ok announcement, after⟩ ∈ steps

/-- The announcements of the oracles, in their order, for one event. -/
def Row (eventId : String) (steps : List WalletStep) (publicKeys : List PublicKey)
    (row : List OracleAnnouncement) : Prop :=
  List.Forall₂ (fun publicKey announcement =>
    AnnouncedFor steps publicKey eventId announcement) publicKeys row

/-- At each position is the announcement of the oracle that the contract info has there,
for the event of that contract info. -/
def MatchesInput (steps : List WalletStep) (contractInput : ContractInput)
    (announcements : List (List OracleAnnouncement)) : Prop :=
  List.Forall₂ (fun info row =>
    Row info.oracles.eventId steps info.oracles.publicKeys row)
    contractInput.contractInfos announcements

/-- The contract infos that have oracles are about the event of the first one. -/
def OneEvent (contractInput : ContractInput) : Prop :=
  ∀ first ∈ contractInput.contractInfos.head?, ∀ info ∈ contractInput.contractInfos,
    info.oracles.publicKeys ≠ [] → info.oracles.eventId = first.oracles.eventId

/-- The announcements that a step passes to `offer_contract`. -/
def passedAnnouncements (step : WalletStep) : Option (List (List OracleAnnouncement)) :=
  match step.request with
  | .offerContract _ announcements .. => some announcements
  | _ => none

section Runs

variable {repliesLost : Prop} {manager : Manager} {contractInput : ContractInput}
  {start final : ContractStore} {steps : List WalletStep}

/-- A request that succeeds is one step. -/
theorem runs_ask_ok {request : WalletRequest} {reply : request.Reply}
    (run : Runs (World repliesLost) (ask request).run start steps (.ok reply) final) :
    steps = [⟨start, request, .ok reply, final⟩] := by
  obtain ⟨answer, middle, rest, -, rfl, rfl, rfl, rfl⟩ := run
  rfl

/-- All announcements asked for are of the event. -/
def OnlyEvent (eventId : String) (steps : List WalletStep) : Prop :=
  ∀ step ∈ steps, ∀ oracle other, step.request = .getAnnouncement oracle other →
    other = eventId

/-- The step asks for an announcement of the event. -/
def AsksFor (eventId : String) (step : WalletStep) : Prop :=
  ∃ oracle, step.request = .getAnnouncement oracle eventId

theorem AnnouncedFor.mono {front steps : List WalletStep} {oracle : PublicKey}
    {eventId : String} {announcement : OracleAnnouncement}
    (announced : AnnouncedFor front oracle eventId announcement) (within : front ⊆ steps) :
    AnnouncedFor steps oracle eventId announcement := by
  obtain ⟨before, after, member⟩ := announced
  exact ⟨before, after, within member⟩

theorem Row.mono {eventId : String} {front steps : List WalletStep}
    {publicKeys : List PublicKey} {row : List OracleAnnouncement}
    (rowOf : Row eventId front publicKeys row) (within : front ⊆ steps) :
    Row eventId steps publicKeys row := by
  apply List.Forall₂.imp _ rowOf
  intro publicKey announcement announced
  exact announced.mono within

/-- A row of answers about an event shows that it was asked for. -/
theorem OnlyEvent.of_row {eventId other : String} {publicKeys : List PublicKey}
    {row : List OracleAnnouncement} (only : OnlyEvent eventId steps)
    (rowOf : Row other steps publicKeys row) (oracles : publicKeys ≠ []) :
    other = eventId := by
  cases rowOf with
  | nil => exact absurd rfl oracles
  | cons announced others =>
      obtain ⟨before, after, member⟩ := announced
      exact only _ member _ other rfl

/-- Asking the oracles of one contract info. -/
theorem runs_askRow {eventId : String} {publicKeys : List PublicKey}
    {row : List OracleAnnouncement}
    (run : Runs (World repliesLost)
      (publicKeys.mapM fun publicKey => ask (.getAnnouncement publicKey eventId)).run
      start steps (.ok row) final) :
    Row eventId steps publicKeys row ∧ ∀ step ∈ steps, AsksFor eventId step := by
  apply runs_run_mapM _ _ publicKeys run
  · intro front steps publicKey announcement within announced
    exact announced.mono within
  · intro publicKey before steps announcement after asked
    obtain rfl := runs_ask_ok asked
    constructor
    · exact ⟨before, after, List.mem_singleton_self _⟩
    · intro step member
      obtain rfl := List.mem_singleton.mp member
      exact ⟨publicKey, rfl⟩

/-- Asking the oracles of every contract info. -/
theorem runs_askMatrix {eventId : String} {infos : List ContractInputInfo}
    {announcements : List (List OracleAnnouncement)}
    (run : Runs (World repliesLost)
      (infos.mapM fun info : ContractInputInfo =>
        info.oracles.publicKeys.mapM fun publicKey =>
          ask (.getAnnouncement publicKey eventId)).run
      start steps (.ok announcements) final) :
    List.Forall₂ (fun info row => Row eventId steps info.oracles.publicKeys row) infos
      announcements ∧
    ∀ step ∈ steps, AsksFor eventId step := by
  apply runs_run_mapM _ _ infos run
  · intro front steps info row within rowOf
    exact rowOf.mono within
  · intro info before steps row after asked
    exact runs_askRow asked

/-- What a run that returns a message asked for. -/
theorem runs_sendOffer {counterParty : PublicKey} {refundDelay : Nat}
    {basisPoints : UInt64} {feeAddress : String} {message : OfferDlc}
    (run : Runs (World repliesLost) (sendOffer manager contractInput counterParty
      refundDelay basisPoints feeAddress).run start steps (.ok message) final) :
    ∃ first announcements, contractInput.contractInfos.head? = some first ∧
      steps.filterMap passedAnnouncements = [announcements] ∧
      List.Forall₂ (fun info row =>
        Row first.oracles.eventId steps info.oracles.publicKeys row)
        contractInput.contractInfos announcements ∧
      OnlyEvent first.oracles.eventId steps := by
  unfold sendOffer at run
  cases known : manager.oracles with
  | none =>
      rw [known] at run
      obtain ⟨-, failed, -⟩ := run
      cases failed
  | some oracles =>
      rw [known] at run
      dsimp only at run
      obtain ⟨_, valued, _, rest, validation, later, rfl⟩ := runs_run_bind_ok _ _ run
      obtain rfl := runs_ask_ok validation
      clear run
      cases head : contractInput.contractInfos.head? with
      | none =>
          rw [head] at later
          obtain ⟨-, failed, -⟩ := later
          cases failed
      | some first =>
          rw [head] at later
          dsimp only at later
          split_ifs at later
          · obtain ⟨announcements, _, asking, _, asked, offer, rfl⟩ :=
              runs_run_bind_ok _ _ later
            obtain ⟨⟨offered, reply⟩, _, _, _, offers, check, rfl⟩ :=
              runs_run_bind_ok _ _ offer
            obtain ⟨_, _, _, _, checks, create, rfl⟩ := runs_run_bind_ok _ _ check
            obtain ⟨_, _, _, _, creates, ended, rfl⟩ := runs_run_bind_ok _ _ create
            obtain ⟨rfl, -, rfl⟩ := ended
            obtain rfl := runs_ask_ok offers
            obtain rfl := runs_ask_ok checks
            obtain rfl := runs_ask_ok creates
            obtain ⟨rows, events⟩ := runs_askMatrix asked
            have none : asking.filterMap passedAnnouncements = [] := by
              rw [List.filterMap_eq_nil_iff]
              intro step member
              obtain ⟨oracle, asks⟩ := events step member
              simp only [passedAnnouncements, asks]
            refine ⟨first, announcements, rfl, ?_, ?_, ?_⟩
            · simp [List.filterMap_append, List.filterMap_cons, none, passedAnnouncements]
            · apply List.Forall₂.imp _ rows
              intro info row rowOf
              apply rowOf.mono
              intro step member
              simp [member]
            · intro step member oracle eventId asks
              simp only [List.mem_append, List.mem_singleton, List.append_nil] at member
              obtain rfl | member | rfl | rfl | rfl := member
              · cases asks
              · obtain ⟨other, asksFirst⟩ := events step member
                rw [asks] at asksFirst
                cases asksFirst
                rfl
              all_goals cases asks
          · obtain ⟨-, failed, -⟩ := later
            cases failed

end Runs

/-- The matrix that goes to the crate matches the contract infos exactly when those that
have oracles are about one event. -/
theorem sendOffer_matchesInput_iff {repliesLost : Prop} (manager : Manager)
    (contractInput : ContractInput) (counterParty : PublicKey) (refundDelay : Nat)
    (basisPoints : UInt64) (feeAddress : String) {start final : ContractStore}
    {steps : List WalletStep} {message : OfferDlc}
    (run : Runs (World repliesLost) (sendOffer manager contractInput counterParty
      refundDelay basisPoints feeAddress).run start steps (.ok message) final) :
    ∃ announcements, steps.filterMap passedAnnouncements = [announcements] ∧
      (MatchesInput steps contractInput announcements ↔ OneEvent contractInput) := by
  obtain ⟨first, announcements, head, passed, rows, events⟩ := runs_sendOffer run
  refine ⟨announcements, passed, ?_, ?_⟩
  · intro matched other otherHead
    rw [head] at otherHead
    obtain rfl := Option.some.inj otherHead
    -- an oracle's row holds an answer about the event that was asked for
    have each : List.Forall₂ (fun (info : ContractInputInfo) row =>
        (info.oracles.publicKeys ≠ [] → info.oracles.eventId = first.oracles.eventId) ∧
          Row info.oracles.eventId steps info.oracles.publicKeys row)
        contractInput.contractInfos announcements := by
      apply List.Forall₂.imp _ matched
      intro info row rowOf
      refine ⟨fun oracles => ?_, rowOf⟩
      exact events.of_row rowOf oracles
    exact ((List.forall₂_and_left _ _).mp each).1
  · intro oneEvent
    have each := (List.forall₂_and_left _ _).mpr ⟨oneEvent first head, rows⟩
    apply List.Forall₂.imp _ each
    rintro info row ⟨same, rowOf⟩
    by_cases oracles : info.oracles.publicKeys = []
    · rw [oracles] at rowOf ⊢
      cases rowOf
      exact .nil
    · rw [same oracles]
      exact rowOf

/-- Others that answer every request of an offer. -/
def offeringOthers : Others where
  down _ := false
  answers
    | .validateInput _ => .ok ()
    | .getAnnouncement oracle eventId => .ok ⟨oracle, eventId⟩
    | .offerContract .. =>
        .ok (⟨.replicate 32 1, [], "peer"⟩, ⟨.replicate 32 1, []⟩)
    | .validateOfferedContract _ => .ok ()
    | _ => .error (.ioError "not answered")

/-- Two contract infos, each about an event of its own. -/
def sampleEvents (first second : String) : ContractInput :=
  ⟨[⟨⟨["oracle"], first, 1⟩⟩, ⟨⟨["oracle"], second, 1⟩⟩]⟩

def sampleSending (contractInput : ContractInput) :
    List WalletStep × Except DlcError OfferDlc × ContractStore :=
  eval (serve offeringOthers)
    (sendOffer sampleManager contractInput "peer" 0 100 "fees").run UniqueTable.empty

theorem runs_sampleSending (contractInput : ContractInput) :
    Runs (World False) (sendOffer sampleManager contractInput "peer" 0 100 "fees").run
      UniqueTable.empty (sampleSending contractInput).1 (sampleSending contractInput).2.1
      (sampleSending contractInput).2.2 := by
  unfold sampleSending
  with_reducible exact runs_eval (serve offeringOthers) (world_serve False _) _ _

theorem sendOffer_matchesInput_iff_sampleEvents :
    ∃ announcements,
      (sampleSending (sampleEvents "first" "first")).1.filterMap passedAnnouncements =
        [announcements] ∧
      MatchesInput (sampleSending (sampleEvents "first" "first")).1
        (sampleEvents "first" "first") announcements := by
  have sent : (sampleSending (sampleEvents "first" "first")).2.1 =
      .ok ⟨.replicate 32 1, []⟩ := by
    decide +kernel
  have run := runs_sampleSending (sampleEvents "first" "first")
  rw [sent] at run
  obtain ⟨announcements, passed, matched⟩ := sendOffer_matchesInput_iff sampleManager
    (sampleEvents "first" "first") "peer" 0 100 "fees" run
  refine ⟨announcements, passed, matched.mpr ?_⟩
  unfold OneEvent
  decide

/-- The second contract info gets the announcement of the event of the first one. -/
theorem sendOffer_not_matchesInput :
    ¬ ∀ (manager : Manager) (contractInput : ContractInput) (counterParty : PublicKey)
      (refundDelay : Nat) (basisPoints : UInt64) (feeAddress : String)
      (start final : ContractStore) (steps : List WalletStep) (message : OfferDlc),
      Runs (World False) (sendOffer manager contractInput counterParty refundDelay
        basisPoints feeAddress).run start steps (.ok message) final →
      ∃ announcements, steps.filterMap passedAnnouncements = [announcements] ∧
        MatchesInput steps contractInput announcements := by
  intro always
  have sent : (sampleSending (sampleEvents "first" "second")).2.1 =
        .ok ⟨.replicate 32 1, []⟩ ∧
      (sampleSending (sampleEvents "first" "second")).1.all fun step =>
        step.request ≠ .getAnnouncement "oracle" "second" := by
    decide +kernel
  obtain ⟨returned, unasked⟩ := sent
  have run := runs_sampleSending (sampleEvents "first" "second")
  rw [returned] at run
  obtain ⟨announcements, -, matched⟩ := always _ _ _ _ _ _ _ _ _ _ run
  cases matched with
  | cons first others =>
      cases others with
      | cons second none =>
          cases second with
          | cons announced rest =>
              obtain ⟨before, after, member⟩ := announced
              have unasked := List.all_eq_true.mp unasked _ member
              simp at unasked

end LinkManager

end DlcStack

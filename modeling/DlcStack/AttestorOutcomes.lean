import DlcStack.AttestorStored

/-!
# Outcomes as digits

The attestor signs an outcome digit by digit, in base two, with the nonces that it
announced.  The width of the text is a minimum: an outcome that does not fit in it
has more digits than there are nonces, and than the router wallet expects.
-/

namespace DlcStack

namespace RouterWallet

/-- `NB_DIGITS` -/
def nbDigits : Nat := 14

/-- `BASE` -/
def base : Nat := 2

structure OracleNumericInfo where
  base : Nat
  nbDigits : List Nat
  deriving DecidableEq, Repr

/-- `oracle_numeric_infos` of `get_numerical_contract_descriptor` -/
def oracleNumericInfos (nbAttestors : Nat) : OracleNumericInfo :=
  ⟨base, List.replicate nbAttestors nbDigits⟩

/-- The digit that a text is. -/
def readDigit (base : Nat) (text : String) : Option Nat :=
  match text.toList with
  | [char] =>
      if char.isDigit ∧ char.toNat - '0'.toNat < base then some (char.toNat - '0'.toNat)
      else none
  | _ => none

/-- The number that the digits make of the digits before them, the most significant one
first. -/
def readDigitsAfter (base : Nat) : Nat → List String → Option Nat
  | number, [] => some number
  | number, text :: rest =>
      (readDigit base text).bind fun digit =>
        readDigitsAfter base (base * number + digit) rest

/-- The number that so many digits are. -/
def readDigits (base nbDigits : Nat) (texts : List String) : Option Nat :=
  if texts.length = nbDigits then readDigitsAfter base 0 texts else none

theorem readDigit_lt {base digit : Nat} {text : String}
    (read : readDigit base text = some digit) : digit < base := by
  unfold readDigit at read
  split at read
  · split_ifs at read with small
    obtain rfl := Option.some.inj read
    exact small.2
  · cases read

private theorem readDigitsAfter_lt {base number result : Nat} {texts : List String}
    (read : readDigitsAfter base number texts = some result) :
    result < (number + 1) * base ^ texts.length := by
  induction texts generalizing number with
  | nil =>
      obtain rfl := Option.some.inj read
      simp
  | cons text texts ih =>
      obtain ⟨digit, isDigit, read⟩ := Option.bind_eq_some_iff.mp read
      have small := readDigit_lt isDigit
      have fits : base * number + digit + 1 ≤ (number + 1) * base := by
        rw [Nat.add_mul, Nat.one_mul, Nat.mul_comm base number]
        omega
      calc result
          < (base * number + digit + 1) * base ^ texts.length := ih read
        _ ≤ (number + 1) * base * base ^ texts.length := Nat.mul_le_mul_right _ fits
        _ = (number + 1) * base ^ (texts.length + 1) := by
            rw [Nat.pow_succ', Nat.mul_assoc]

/-- So many digits are a number below that power of the base. -/
theorem readDigits_lt {base nbDigits number : Nat} {texts : List String}
    (read : readDigits base nbDigits texts = some number) : number < base ^ nbDigits := by
  unfold readDigits at read
  split_ifs at read with long
  have bound := readDigitsAfter_lt read
  rw [long] at bound
  simpa using bound

/-- Binary digits are read as the number that they are. -/
private theorem readDigitsAfter_binary {chars : List Char}
    (binary : ∀ char ∈ chars, char = '0' ∨ char = '1') (number : Nat) :
    readDigitsAfter 2 number (chars.map String.singleton) =
      some (Nat.ofDigitChars 2 chars number) := by
  induction chars generalizing number with
  | nil => rfl
  | cons char chars ih =>
      have later := ih fun other member => binary other (List.mem_cons_of_mem _ member)
      rw [List.map_cons, readDigitsAfter, Nat.ofDigitChars_cons, ← later]
      rcases binary char (by simp) with rfl | rfl <;> rfl

end RouterWallet

namespace WasmAttestor

open Program Clients RouterWallet

theorem binary_of_mem_toDigits {number : Nat} {char : Char}
    (member : char ∈ Nat.toDigits 2 number) : char = '0' ∨ char = '1' := by
  induction number using Nat.strong_induction_on with
  | h number ih =>
      rw [Nat.toDigits_eq_if (by decide)] at member
      split_ifs at member with small
      · rw [List.mem_singleton] at member
        subst member
        obtain rfl | rfl : number = 0 ∨ number = 1 := by omega
        · decide
        · decide
      · rcases List.mem_append.mp member with member | member
        · exact ih (number / 2) (by omega) member
        · rw [List.mem_singleton] at member
          subst member
          rcases Nat.mod_two_eq_zero_or_one number with even | odd
          · rw [even]
            decide
          · rw [odd]
            decide

/-- A text of digits has the width, or as many digits as it takes. -/
theorem length_binaryDigits {width outcome : Nat} (positive : 0 < width) :
    (binaryDigits width outcome).length = width ↔ outcome < 2 ^ width := by
  have fits := @Nat.length_toDigits_le_iff 2 outcome width (by decide) positive
  unfold binaryDigits
  rw [← fits, List.length_map, List.length_append, List.length_replicate]
  omega

/-- An outcome that fits is what its digits are read as. -/
theorem readDigits_binaryDigits {width outcome : Nat} (positive : 0 < width)
    (fits : outcome < 2 ^ width) :
    readDigits 2 width (binaryDigits width outcome) = some outcome := by
  unfold readDigits
  rw [if_pos ((length_binaryDigits positive).mpr fits), binaryDigits,
    readDigitsAfter_binary, Nat.ofDigitChars_append, Nat.ofDigitChars_replicate_zero,
    Nat.mul_zero, Nat.ofDigitChars_toDigits (by decide) (by decide)]
  intro char member
  rcases List.mem_append.mp member with member | member
  · exact .inl (List.eq_of_mem_replicate member)
  · exact binary_of_mem_toDigits member

/-! ## One nonce for each digit -/

/-- An event has as many nonces as digits. -/
def Full (_ : String) (value : DbValue) : Prop :=
  ∀ nonces, value.outstandingSkNonces = some nonces → nonces.length = 14

/-- What `create_event` sends, it sends after it has drawn a nonce for each digit. -/
def SendsFull (call : AttestorCall) (past : List AttestorStep) (step : AttestorStep) :
    Prop :=
  ∀ uuid maturation chain, call = .createEvent uuid maturation chain →
    ∀ nonce sent, step.request = .api (.send nonce sent) → (drawnKeys past).length = 14

section Always

variable {attestor : Attestor} {lossy : Prop} {past : List AttestorStep}
  {state : AttestorState}

private theorem asks_storage {α : Type} (operation : StorageApiClient α) :
    Asks (fun request => request ≠ AttestorRequest.newSecretKey) (storage operation).run :=
  asks_adapt (asks_relabel (by simp) operation.run)

private theorem asks_insert (eventId newEvent : String) :
    Asks (fun request => request ≠ AttestorRequest.newSecretKey)
      (insert attestor eventId newEvent).run := by
  unfold insert
  refine asks_run_bind (asks_storage _) fun event => ?_
  split_ifs
  · exact asks_run_bind (asks_storage _) fun _ => asks_pure _
  · exact asks_run_bind (asks_storage _) fun _ => asks_pure _

/-- After the draws, everything is sent with them made. -/
private theorem always_sendsFull {α : Type} {call : AttestorCall}
    {program : AttestorProgram α}
    (asks : Asks (fun request => request ≠ AttestorRequest.newSecretKey) program)
    (drawn : (drawnKeys past).length = 14) :
    Always (World attestor lossy) (fun _ _ => True) (SendsFull call)
      (fun _ _ _ => True) past state program := by
  refine (asks.always_past (fun past => (drawnKeys past).length = 14) ?_ drawn).post_mono
    fun _ _ _ _ => trivial
  intro past step notDrawing drawn
  refine ⟨fun _ _ _ _ _ _ _ => drawn, ?_⟩
  have none : drawnKeys [step] = [] := by
    obtain ⟨before, request, answer, after⟩ := step
    cases request with
    | newSecretKey => exact absurd rfl notDrawing
    | _ => rfl
  rw [drawnKeys_append, none, List.append_nil]
  exact drawn

private theorem always_createEvent_sendsFull (uuid maturation chain : String) :
    Always (World attestor lossy) (fun _ _ => True)
      (SendsFull (.createEvent uuid maturation chain)) (fun _ _ _ => True) [] state
      (createEvent attestor uuid maturation chain).run := by
  unfold createEvent
  cases attestor.parseRfc3339 maturation with
  | none => trivial
  | some maturation =>
      dsimp only
      unfold buildAnnouncement generateNoncesForEvent eventDescriptor
      rw [bind_assoc, bind_assoc]
      refine (always_run_lift_bind _ _).mpr ((always_draw ?_ _).post_mono ?_)
      · intro past before key after uuid maturation chain _ nonce sent request
        cases request
      · rintro past keys after ⟨drew, count⟩
        rw [show drawnKeys ([] : List AttestorStep) = [] from rfl, List.nil_append] at drew
        have drawn : (drawnKeys past).length = 14 := by
          rw [drew, count, List.length_range]
        refine always_sendsFull ?_ drawn
        rw [pure_bind]
        dsimp only
        split_ifs
        · rw [bind_assoc]
          refine asks_run_lift_bind (asks_perform (by simp)) fun sig => ?_
          rw [pure_bind]
          refine asks_run_lift_bind (asks_insert _ _) fun inserted => ?_
          rcases inserted with _ | _ | _ <;> exact asks_pure _
        · exact asks_pure _

private theorem always_call_sendsFull (call : AttestorCall) :
    Always (World attestor lossy) (fun _ _ => True) (SendsFull call)
      (fun _ _ _ => True) [] state (call.run attestor).run := by
  cases call with
  | createEvent uuid maturation chain => exact always_createEvent_sendsFull _ _ _
  | attest uuid outcome =>
      refine always_of_forall ?_ (fun _ _ _ => trivial) _
      intro past step uuid maturation chain same
      cases same

/-- What a call writes has a nonce for each digit if what it has read has. -/
private theorem Proper.upholds_full {call : AttestorCall} {step : AttestorStep}
    (proper : Proper attestor call past step) (sends : SendsFull call past step) :
    Upholds attestor Full call past step := by
  intro nonce sent request
  refine (proper nonce sent request).imp_right ?_
  rintro ⟨value, written, sets⟩
  refine ⟨value, fun readFull => ?_, sets⟩
  cases written with
  | created drew announces =>
      rintro _ ⟨⟩
      rw [← drew]
      exact sends _ _ _ rfl nonce sent request
  | @attested uuid outcome nbDigits steps row value nonces announcement read holds kept
      announced digits =>
      obtain ⟨other, found, full⟩ := readFull row read
      rw [holds] at found
      obtain rfl := Option.some.inj found
      exact full

end Always

/-- Along every interleaving of calls of one attestor, its events have as many nonces as
digits. -/
theorem interleaved_full {ι : Type} [DecidableEq ι] {attestor : Attestor}
    (roundTrip : attestor.encodings.RoundTrip) (calls : ι → AttestorCall)
    {start final : AttestorState} {trace : List (ι × AttestorStep)}
    {pool : Pool ι AttestorState AttestorRequest AttestorRequest.Answer
      (Except String Unit)}
    (initially : RowsHold attestor Full start.db)
    (run : Interleaved (World attestor True) AnyStep
      (fun index => Thread.start ((calls index).run attestor).run) start trace pool
      final) :
    RowsHold attestor Full final.db :=
  interleaved_rowsHold roundTrip calls (fun call _ =>
    ((always_call call).and (always_call_sendsFull call)).mono
      (fun _ _ both => both.1.upholds_full both.2) fun _ _ _ _ => trivial) initially run

/-! ## What an attestation denotes -/

/-- The attestation has one outcome and one signature for each announced digit, each
signature being made over its digit with the nonce announced for it, and the digits are
read by every router wallet as the outcome. -/
structure DenotesWith (attestor : Attestor) (outcome : Nat) (nonces : List SecretKey)
    (announcement : OracleAnnouncement) (attestation : OracleAttestation) : Prop where
  announced : announcement.oracleEvent.oracleNonces = nonces.map attestor.schnorrPublicKey
  outcomes : announcement.oracleEvent.eventDescriptor.nbDigits? =
    some attestation.outcomes.length
  signatures : announcement.oracleEvent.eventDescriptor.nbDigits? =
    some attestation.signatures.length
  signed : ∀ place < attestation.outcomes.length, ∃ digit nonce,
    attestation.outcomes[place]? = some digit ∧ nonces[place]? = some nonce ∧
      attestation.signatures[place]? = some (attestor.schnorrsigSignWithNonce digit nonce)
  read : ∀ nbAttestors, ∀ width ∈ (oracleNumericInfos nbAttestors).nbDigits,
    readDigits (oracleNumericInfos nbAttestors).base width attestation.outcomes =
      some outcome

/-- The event is stored with an attestation that denotes the outcome. -/
def Denotes (attestor : Attestor) (db : Storage.Database) (uuid : String)
    (outcome : Nat) : Prop :=
  ∃ value announcement nonces attestation,
    storedValue? attestor db uuid = some value ∧
    attestor.encodings.readAnnouncement value.announcement = .ok announcement ∧
    value.outcome = some outcome ∧
    value.attestation = some (attestor.encodings.encodeAttestation attestation) ∧
    DenotesWith attestor outcome nonces announcement attestation

/-- The attestation of an outcome that fits in the digits denotes it. -/
theorem denotesWith_attestationOf {attestor : Attestor} {uuid : String} {outcome : Nat}
    {value : DbValue} {nonces : List SecretKey} {announcement : OracleAnnouncement}
    (coherent : CoherentWith attestor uuid value nonces announcement)
    (full : nonces.length = 14) (fits : outcome < 2 ^ 14) :
    DenotesWith attestor outcome nonces announcement
      (attestationOf attestor nonces (binaryDigits 14 outcome)) := by
  have long : (binaryDigits 14 outcome).length = 14 :=
    (length_binaryDigits (by decide)).mpr fits
  have described : announcement.oracleEvent.eventDescriptor.nbDigits? = some 14 := by
    rw [coherent.described]
    rfl
  refine ⟨coherent.corresponding, ?_, ?_, fun place inside => ?_, ?_⟩
  · rw [described, attestationOf, long]
  · rw [described, attestationOf, List.length_map, List.length_zip, long, full]
    rfl
  · change place < (binaryDigits 14 outcome).length at inside
    have digit := List.getElem?_eq_getElem inside
    have nonce := List.getElem?_eq_getElem (show place < nonces.length by omega)
    refine ⟨_, _, digit, nonce, ?_⟩
    have pair : ((binaryDigits 14 outcome).zip nonces)[place]? =
        some ((binaryDigits 14 outcome)[place], nonces[place]) :=
      List.getElem?_zip_eq_some.mpr ⟨digit, nonce⟩
    rw [attestationOf, List.getElem?_map, pair]
    rfl
  · intro nbAttestors width member
    obtain rfl := List.eq_of_mem_replicate member
    exact readDigits_binaryDigits (by decide) fits

/-- An outcome that is denoted fits in the digits. -/
theorem Denotes.fits {attestor : Attestor} {db : Storage.Database} {uuid : String}
    {outcome : Nat} (denotes : Denotes attestor db uuid outcome) : outcome < 2 ^ 14 := by
  obtain ⟨value, announcement, nonces, attestation, -, -, -, -, denotes⟩ := denotes
  exact readDigits_lt (denotes.read 1 nbDigits (by simp [oracleNumericInfos]))

/-- The attestation that `attest` makes of a coherent event with a nonce for each digit
denotes the outcome if it fits. -/
theorem denotes_of_attestedFor {attestor : Attestor} {db : Storage.Database}
    {uuid : String} {outcome : Nat} {value other : DbValue}
    (coherent : Coherent attestor uuid value) (full : Full uuid value)
    (sameNonces : other.outstandingSkNonces = value.outstandingSkNonces)
    (sameAnnouncement : other.announcement = value.announcement)
    (attested : AttestedFor attestor outcome other)
    (stored : storedValue? attestor db uuid = some other) (fits : outcome < 2 ^ 14) :
    Denotes attestor db uuid outcome := by
  obtain ⟨nonces, announcement, nbDigits, kept, announced, digits, recorded, attestation⟩ :=
    attested
  obtain ⟨nonces', announcement', coherent⟩ := coherent
  rw [sameNonces, coherent.kept] at kept
  obtain rfl := Option.some.inj kept
  rw [sameAnnouncement, coherent.announced] at announced
  obtain rfl := Except.ok.inj announced
  rw [coherent.described] at digits
  obtain rfl : 14 = nbDigits := Option.some.inj digits
  refine ⟨other, announcement', nonces', _, stored, ?_, recorded, attestation,
    denotesWith_attestationOf coherent (full _ coherent.kept) fits⟩
  rw [sameAnnouncement]
  exact coherent.announced

/-- An event of a coherent record is attested for the outcome that it has. -/
theorem Coherent.attestedFor {attestor : Attestor} {uuid : String} {value : DbValue}
    {outcome : Nat} (coherent : Coherent attestor uuid value)
    (recorded : value.outcome = some outcome) : AttestedFor attestor outcome value := by
  obtain ⟨nonces, announcement, coherent⟩ := coherent
  refine ⟨nonces, announcement, 14, coherent.kept, coherent.announced, ?_, recorded, ?_⟩
  · rw [coherent.described]
    rfl
  · rw [coherent.attested, recorded]
    rfl

/-- In every state that calls of an attestor reach from an empty database, however they
overlap and whatever becomes of their requests, `attest` fails with nothing stored or
leaves an attestation that denotes the outcome, exactly if it finds no event to attest,
or the outcome fits in fourteen digits and the record is set or had it before. -/
theorem attest_denotes_iff {ι : Type} [DecidableEq ι] {attestor : Attestor}
    (roundTrip : attestor.encodings.RoundTrip) (calls : ι → AttestorCall)
    {trace : List (ι × AttestorStep)} {drawn : List SecretKey}
    {pool : Pool ι AttestorState AttestorRequest AttestorRequest.Answer
      (Except String Unit)} {reached : AttestorState}
    (history : Interleaved (World attestor True) AnyStep
      (fun index => Thread.start ((calls index).run attestor).run) ⟨.empty, drawn⟩ trace
      pool reached)
    {lossy : Prop} {uuid : String} {outcome : Nat} {final : AttestorState}
    {steps : List AttestorStep} {result : Except String Unit}
    (run : Runs (World attestor lossy) (attest attestor uuid outcome).run reached steps
      result final) :
    ((∃ error, result = .error error) ∧ final.db = reached.db ∨
        Denotes attestor final.db uuid outcome) ↔
      ¬ ReadsAttestable attestor uuid steps ∨
        outcome < 2 ^ 14 ∧ (SetsEvent attestor uuid steps ∨
          StoredFor attestor reached.db uuid outcome) := by
  have empty (holds : String → DbValue → Prop) :
      RowsHold attestor holds Storage.Database.empty := by
    intro eventId row found
    rw [Storage.Database.empty, UniqueTable.find?_empty] at found
    cases found
  have coherent := interleaved_coherent roundTrip calls (by exact empty (Coherent attestor)) history
  have full := interleaved_full roundTrip calls (by exact empty Full) history
  have wellFormed (value : DbValue)
      (stored : storedValue? attestor reached.db uuid = some value) :
      Coherent attestor uuid value ∧ Full uuid value := by
    obtain ⟨row, found, holds⟩ := Option.bind_eq_some_iff.mp stored
    obtain ⟨first, firstHolds, isCoherent⟩ := coherent uuid row found
    obtain ⟨second, secondHolds, isFull⟩ := full uuid row found
    rw [holds] at firstHolds secondHolds
    obtain rfl := Option.some.inj firstHolds
    obtain rfl := Option.some.inj secondHolds
    exact ⟨isCoherent, isFull⟩
  obtain ⟨failed, same, none⟩ | ⟨rfl, attestable, value, other, stored, sameNonces,
    sameAnnouncement, attested, outcomes⟩ := runs_attest_cases roundTrip run
  · exact ⟨fun _ => .inl none, fun _ => .inl ⟨failed, same⟩⟩
  constructor
  · rintro (⟨⟨_, ⟨⟩⟩, -⟩ | denotes)
    refine .inr ⟨denotes.fits, ?_⟩
    rcases outcomes with ⟨sets, -⟩ | ⟨-, same⟩
    · exact .inl sets
    · obtain ⟨value, _, _, _, stored, -, recorded, -, -⟩ := denotes
      rw [same] at stored
      exact .inr ⟨value, stored, (wellFormed value stored).1.attestedFor recorded⟩
  · rintro (notAttestable | ⟨fits, condition⟩)
    · exact absurd attestable notAttestable
    · right
      rcases outcomes with ⟨-, after⟩ | ⟨setsNone, same⟩
      · obtain ⟨isCoherent, isFull⟩ := wellFormed value stored
        exact denotes_of_attestedFor isCoherent isFull sameNonces sameAnnouncement attested
          after fits
      · obtain ⟨before, stored, attested⟩ := condition.resolve_left setsNone
        obtain ⟨isCoherent, isFull⟩ := wellFormed before stored
        rw [same]
        exact denotes_of_attestedFor isCoherent isFull rfl rfl attested stored fits

/-! ## Outcomes to attest -/

/-- One call, which creates the event. -/
def sampleCreation : Pool Unit AttestorState AttestorRequest AttestorRequest.Answer
    (Except String Unit) :=
  fun _ => Thread.start ((AttestorCall.createEvent "uuid" "maturation" "chain").run
    sampleAttestor).run

theorem interleaved_sampleCreation :
    ∃ trace pool, Interleaved (World sampleAttestor True) AnyStep sampleCreation
      ⟨.empty, []⟩ trace pool sampleEvent := by
  have reached : (sampleCreation.schedule (serve sampleAttestor) (List.replicate 19 ())
      sampleStart).2 = sampleEvent := by
    decide +kernel
  exact ⟨_, _, reached ▸ interleaved_schedule (serve sampleAttestor)
    (world_serve sampleAttestor True) _ (metAlong_anyStep ..) .idle⟩

theorem attest_denotes_sampleAttest :
    (sampleAttest (serve sampleAttestor) 1).2.1 = .ok () ∧
      Denotes sampleAttestor (sampleAttest (serve sampleAttestor) 1).2.2.db "uuid" 1 := by
  obtain ⟨trace, pool, history⟩ := interleaved_sampleCreation
  have ran : (sampleAttest (serve sampleAttestor) 1).2.1 = .ok () ∧
      (sampleAttest (serve sampleAttestor) 1).2.2.db.events.find?
        (sampleAttestor.publicKey, "uuid") ≠
          sampleEvent.db.events.find? (sampleAttestor.publicKey, "uuid") := by
    decide +kernel
  obtain ⟨returned, changes⟩ := ran
  have sets := setsEvent_sampleAttest 1 changes
  refine ⟨returned, ?_⟩
  have denotes := (attest_denotes_iff (sampleEncodings_roundTrip _ _)
    (fun _ => .createEvent "uuid" "maturation" "chain") history (runs_sampleAttest 1)).mpr
      (.inr ⟨by decide, .inl sets⟩)
  refine denotes.resolve_left ?_
  rintro ⟨⟨error, failed⟩, -⟩
  rw [returned] at failed
  cases failed

/-- An outcome of fifteen digits is attested all the same. -/
theorem not_attest_denotes :
    ¬ ∀ (attestor : Attestor), attestor.encodings.RoundTrip →
      ∀ (calls : Unit → AttestorCall) (trace : List (Unit × AttestorStep))
        (pool : Pool Unit AttestorState AttestorRequest AttestorRequest.Answer
          (Except String Unit)) (reached : AttestorState),
        Interleaved (World attestor True) AnyStep
          (fun index => Thread.start ((calls index).run attestor).run) ⟨.empty, []⟩ trace
          pool reached →
        ∀ (uuid : String) (outcome : Nat) (final : AttestorState)
          (steps : List AttestorStep) (result : Except String Unit), outcome < 2 ^ 64 →
          Runs (World attestor False) (attest attestor uuid outcome).run reached steps result
            final →
          (∃ error, result = .error error) ∧ final.db = reached.db ∨
            Denotes attestor final.db uuid outcome := by
  intro claimed
  obtain ⟨trace, pool, history⟩ := interleaved_sampleCreation
  rcases claimed sampleAttestor (sampleEncodings_roundTrip _ _)
    (fun _ => .createEvent "uuid" "maturation" "chain") trace pool sampleEvent history "uuid"
    (2 ^ 14) _ _ _ (by decide) (runs_sampleAttest (2 ^ 14)) with ⟨⟨error, failed⟩, -⟩ | denotes
  · have returned : (sampleAttest (serve sampleAttestor) (2 ^ 14)).2.1 = .ok () := by
      decide +kernel
    rw [returned] at failed
    cases failed
  · exact absurd denotes.fits (by decide)

end WasmAttestor

end DlcStack

import DlcStack.EffectSessions
import DlcStack.ManagerPeriodicCheck
import Mathlib.Data.Finset.Card
import Mathlib.Data.Nat.Find

/-!
# Which contract info is closed with

`get_closable_contract_info` asks the attestors of one contract info after the
other and returns the first one for which enough of them answer.  The indices of
the announcements go through two filters; what is returned is stated here by the
answers alone.
-/

namespace DlcStack

namespace LinkManager

open Program

/-- What the attestors answer about one contract info, by the index of the
announcement. -/
abbrev Answers := Nat → Except DlcError OracleAttestation

/-- The manager knows the oracle announced at the index, and the oracle answers. -/
def Gives (oracles : List PublicKey) (info : ContractInfo) (answers : Answers)
    (index : Nat) (attestation : OracleAttestation) : Prop :=
  ∃ announcement, info.oracleAnnouncements[index]? = some announcement ∧
    announcement.oraclePublicKey ∈ oracles ∧ answers index = .ok attestation

/-- At least as many announcements as the threshold are of known oracles that
answer. -/
def Enough (oracles : List PublicKey) (info : ContractInfo) (answers : Answers) : Prop :=
  ∃ indices : Finset Nat, info.threshold ≤ indices.card ∧
    ∀ index ∈ indices, ∃ attestation, Gives oracles info answers index attestation

/-- The attestations are those that are given, in the order of their indices. -/
structure Collected (oracles : List PublicKey) (info : ContractInfo) (answers : Answers)
    (attestations : List (Nat × OracleAttestation)) : Prop where
  increasing : (attestations.map Prod.fst).Pairwise (· < ·)
  given : ∀ index attestation, (index, attestation) ∈ attestations ↔
    Gives oracles info answers index attestation

/-- The lists of a contract have these elements at a position they share, and enough
attestors answer there. -/
structure ClosableAt (oracles : List PublicKey) (contract : SignedContract)
    (answers : Nat → Answers) (position : Nat) (info : ContractInfo)
    (adaptor : AdaptorInfo) : Prop where
  infoAt : contract.acceptedContract.offeredContract.contractInfo[position]? = some info
  adaptorAt : contract.acceptedContract.adaptorInfos[position]? = some adaptor
  enough : Enough oracles info (answers position)

/-! ## The requests -/

/-- The announcements of a contract info that the manager asks for. -/
def askedFor (oracles : List PublicKey) (info : ContractInfo) :
    List (OracleAnnouncement × Nat) :=
  if info.threshold ≤ info.oracleAnnouncements.length then
    info.oracleAnnouncements.zipIdx.filter fun asked => asked.1.oraclePublicKey ∈ oracles
  else []

/-- The request for the attestation of an announcement, answered. -/
def answered (store : ContractStore) (answers : Answers)
    (asked : OracleAnnouncement × Nat) : WalletStep :=
  ⟨store, .getAttestation asked.1.oraclePublicKey asked.1.eventId, answers asked.2, store⟩

/-- The steps of asking for every contract info from a position on. -/
def askedSteps (oracles : List PublicKey) (store : ContractStore)
    (answers : Nat → Answers) (position : Nat)
    (infos : List (ContractInfo × AdaptorInfo)) : List WalletStep :=
  (infos.zipIdx position).flatMap fun placed =>
    (askedFor oracles placed.1.1).map (answered store (answers placed.2))

/-- The attestors answer the requests of a look-up so. -/
def ToldAnswers (oracles : List PublicKey) (contract : SignedContract) (start : ContractStore)
    (steps : List WalletStep) (answers : Nat → Answers) : Prop :=
  steps <+: askedSteps oracles start answers 0
    (contract.acceptedContract.offeredContract.contractInfo.zip
      contract.acceptedContract.adaptorInfos)

/-! ## Collecting the answers -/

/-- The attestations of the announcements in a list with their indices. -/
def collect (oracles : List PublicKey) (answers : Answers)
    (announcements : List (OracleAnnouncement × Nat)) : List (Nat × OracleAttestation) :=
  announcements.filterMap fun asked =>
    if asked.1.oraclePublicKey ∈ oracles then
      (answers asked.2).toOption.map fun attestation => (asked.2, attestation)
    else none

theorem mem_collect_iff {oracles : List PublicKey} {info : ContractInfo}
    {answers : Answers} {index : Nat} {attestation : OracleAttestation} :
    (index, attestation) ∈ collect oracles answers info.oracleAnnouncements.zipIdx ↔
      Gives oracles info answers index attestation := by
  unfold collect Gives
  rw [List.mem_filterMap]
  constructor
  · rintro ⟨⟨announcement, place⟩, member, kept⟩
    split_ifs at kept with known
    obtain ⟨found, given, same⟩ := Option.map_eq_some_iff.mp kept
    obtain ⟨rfl, rfl⟩ := Prod.mk.inj same
    refine ⟨announcement, List.mk_mem_zipIdx_iff_getElem?.mp member, known, ?_⟩
    cases answer : answers place with
    | error error => simp [answer, Except.toOption] at given
    | ok value => simpa [answer, Except.toOption] using given
  · rintro ⟨announcement, found, known, answer⟩
    refine ⟨(announcement, index), List.mk_mem_zipIdx_iff_getElem?.mpr found, ?_⟩
    simp [known, answer, Except.toOption]

theorem collected_collect (oracles : List PublicKey) (info : ContractInfo)
    (answers : Answers) :
    Collected oracles info answers
      (collect oracles answers info.oracleAnnouncements.zipIdx) := by
  refine ⟨?_, fun index attestation => mem_collect_iff⟩
  unfold collect
  rw [List.pairwise_map, List.pairwise_filterMap]
  have ordered : info.oracleAnnouncements.zipIdx.Pairwise
      fun first second => first.2 < second.2 := by
    rw [← List.pairwise_map, List.zipIdx_map_snd]
    exact List.pairwise_lt_range'
  refine ordered.imp ?_
  rintro ⟨announcement, index⟩ ⟨other, place⟩ less
  intro first firstKept second secondKept
  dsimp only at less firstKept secondKept
  split_ifs at firstKept secondKept
  obtain ⟨_, -, rfl⟩ := Option.map_eq_some_iff.mp firstKept
  obtain ⟨_, -, rfl⟩ := Option.map_eq_some_iff.mp secondKept
  exact less

theorem Collected.nodup {oracles : List PublicKey} {info : ContractInfo}
    {answers : Answers} {attestations : List (Nat × OracleAttestation)}
    (collected : Collected oracles info answers attestations) :
    (attestations.map Prod.fst).Nodup :=
  collected.increasing.imp fun less => Nat.ne_of_lt less

/-- What is collected depends on the answers of known oracles only. -/
theorem collect_congr {oracles : List PublicKey} {first second : Answers}
    {announcements : List (OracleAnnouncement × Nat)}
    (same : ∀ asked ∈ announcements, asked.1.oraclePublicKey ∈ oracles →
      first asked.2 = second asked.2) :
    collect oracles first announcements = collect oracles second announcements := by
  apply List.filterMap_congr
  intro asked member
  split_ifs with known
  · rw [same asked member known]
  · rfl

/-- There is one list of the attestations that are given. -/
theorem Collected.unique {oracles : List PublicKey} {info : ContractInfo}
    {answers : Answers} {first second : List (Nat × OracleAttestation)}
    (isFirst : Collected oracles info answers first)
    (isSecond : Collected oracles info answers second) : first = second := by
  have same : first.Perm second := by
    refine (List.perm_ext_iff_of_nodup ?_ ?_).mpr ?_
    · exact isFirst.nodup.of_map _
    · exact isSecond.nodup.of_map _
    · rintro ⟨index, attestation⟩
      rw [isFirst.given, isSecond.given]
  have firstSorted := List.pairwise_map.mp isFirst.increasing
  have secondSorted := List.pairwise_map.mp isSecond.increasing
  refine same.eq_of_pairwise ?_ firstSorted secondSorted
  intro left right _ _ less greater
  omega

/-- Enough attestors answer if the list of their attestations is long enough. -/
theorem Collected.enough_iff {oracles : List PublicKey} {info : ContractInfo}
    {answers : Answers} {attestations : List (Nat × OracleAttestation)}
    (collected : Collected oracles info answers attestations) :
    Enough oracles info answers ↔ info.threshold ≤ attestations.length := by
  have size : (attestations.map Prod.fst).toFinset.card = attestations.length := by
    rw [List.toFinset_card_of_nodup collected.nodup, List.length_map]
  constructor
  · rintro ⟨indices, bound, given⟩
    rw [← size]
    refine bound.trans (Finset.card_le_card fun index member => ?_)
    obtain ⟨attestation, gives⟩ := given index member
    exact List.mem_toFinset.mpr (List.mem_map.mpr
      ⟨(index, attestation), (collected.given index attestation).mpr gives, rfl⟩)
  · intro bound
    refine ⟨(attestations.map Prod.fst).toFinset, size ▸ bound, fun index member => ?_⟩
    obtain ⟨⟨place, attestation⟩, isMember, rfl⟩ :=
      List.mem_map.mp (List.mem_toFinset.mp member)
    exact ⟨attestation, (collected.given place attestation).mp isMember⟩

/-! ## Asking for one contract info -/

section Runs

variable {repliesLost : Prop} {manager : Manager} {oracles : List PublicKey}
  {start final : ContractStore} {steps : List WalletStep}

/-- A known oracle is asked, and its attestation gets the index. -/
theorem runs_indexedAttestation {announcement : OracleAnnouncement} {index : Nat}
    {result : Except DlcError (Nat × OracleAttestation)}
    (run : Runs (World repliesLost) (indexedAttestation manager oracles announcement index).run
      start steps result final) :
    final = start ∧ ∃ answer : Except DlcError OracleAttestation,
      steps = (if announcement.oraclePublicKey ∈ oracles then
        [answered start (fun _ => answer) (announcement, index)] else []) ∧
      result.toOption = if announcement.oraclePublicKey ∈ oracles then
        answer.toOption.map fun attestation => (index, attestation) else none := by
  unfold indexedAttestation at run
  split_ifs at run ⊢ with known
  · obtain ⟨answer, after, rest, served, rfl, run⟩ := run
    obtain rfl := served.unchanged rfl
    cases answer with
    | error error =>
        obtain ⟨rfl, rfl, rfl⟩ := run
        exact ⟨rfl, .error error, rfl, rfl⟩
    | ok attestation =>
        obtain ⟨rfl, rfl, rfl⟩ := run
        exact ⟨rfl, .ok attestation, rfl, rfl⟩
  · obtain ⟨rfl, rfl, rfl⟩ := run
    exact ⟨rfl, .error (.ioError ""), rfl, rfl⟩

/-- Asking for a list of announcements asks for those of known oracles, and keeps what
they give. -/
theorem runs_indexedAttestations (announcements : List (OracleAnnouncement × Nat))
    (distinct : (announcements.map Prod.snd).Nodup)
    {results : List (Except DlcError (Nat × OracleAttestation))}
    (run : Runs (World repliesLost) (announcements.mapM fun (announcement, index) =>
      (indexedAttestation manager oracles announcement index).run) start steps results final) :
    final = start ∧ ∃ answers : Answers,
      steps = (announcements.filter fun asked =>
        asked.1.oraclePublicKey ∈ oracles).map (answered start answers) ∧
      results.filterMap Except.toOption = collect oracles answers announcements := by
  induction announcements generalizing steps results with
  | nil =>
      obtain ⟨rfl, rfl, rfl⟩ := run
      exact ⟨rfl, fun _ => .error (.ioError ""), rfl, rfl⟩
  | cons asked rest ih =>
      obtain ⟨announcement, index⟩ := asked
      obtain ⟨elsewhere, distinct⟩ := List.nodup_cons.mp distinct
      obtain ⟨result, results, middle, front, back, first, others, rfl, rfl⟩ :=
        (runs_mapM_cons _ _ _).mp run
      obtain ⟨rfl, answer, rfl, kept⟩ := runs_indexedAttestation first
      obtain ⟨rfl, answers, rfl, collected⟩ := ih distinct others
      -- the answer about this announcement is not one about the others
      have apart (other : OracleAnnouncement × Nat) (member : other ∈ rest) :
          Function.update answers index answer other.2 = answers other.2 := by
        apply Function.update_of_ne
        intro same
        exact elsewhere (List.mem_map.mpr ⟨other, member, same⟩)
      refine ⟨rfl, Function.update answers index answer, ?_, ?_⟩
      · have later : (rest.filter fun asked => asked.1.oraclePublicKey ∈ oracles).map
            (answered final (Function.update answers index answer)) =
              (rest.filter fun asked => asked.1.oraclePublicKey ∈ oracles).map
                (answered final answers) := by
          apply List.map_congr_left
          intro other member
          unfold answered
          rw [apart other (List.mem_of_mem_filter member)]
        rw [← later]
        by_cases known : announcement.oraclePublicKey ∈ oracles
        · simp only [known, if_true, List.filter_cons, decide_true, List.map_cons]
          simp [answered]
        · simp [known]
      · have later : collect oracles (Function.update answers index answer) rest =
            collect oracles answers rest :=
          collect_congr fun other member _ => apart other member
        rw [← later] at collected
        unfold collect at collected ⊢
        rw [List.filterMap_cons, List.filterMap_cons, kept, collected]
        simp

/-- Of answers to the same requests, one is what the other is. -/
private theorem agree_of_prefix {asked : List (OracleAnnouncement × Nat)}
    {first second : Answers} {later : List WalletStep}
    (told : asked.map (answered start first) ++ steps <+:
      asked.map (answered start second) ++ later) :
    (∀ announcement ∈ asked, first announcement.2 = second announcement.2) ∧
      steps <+: later := by
  obtain ⟨rest, split⟩ := told
  rw [List.append_assoc] at split
  obtain ⟨same, split⟩ := List.append_inj split (by simp)
  refine ⟨fun announcement member => ?_, rest, split⟩
  have same := List.map_inj_left.mp same announcement member
  unfold answered at same
  injection same

/-! ## Asking for one contract info after the other -/

/-- The first contract info for which enough attestations are given. -/
def firstClosable (oracles : List PublicKey) (answers : Nat → Answers) :
    Nat → List (ContractInfo × AdaptorInfo) →
    Option (ContractInfo × AdaptorInfo × List (Nat × OracleAttestation))
  | _, [] => none
  | position, (info, adaptor) :: rest =>
      if info.threshold ≤
          (collect oracles (answers position) info.oracleAnnouncements.zipIdx).length then
        some (info, adaptor,
          collect oracles (answers position) info.oracleAnnouncements.zipIdx)
      else firstClosable oracles answers (position + 1) rest

theorem length_collect_le (oracles : List PublicKey) (info : ContractInfo)
    (answers : Answers) :
    (collect oracles answers info.oracleAnnouncements.zipIdx).length ≤
      info.oracleAnnouncements.length := by
  refine (List.length_filterMap_le _ _).trans ?_
  rw [List.length_zipIdx]

/-- The steps of asking for a contract info come first. -/
theorem askedSteps_cons (answers : Nat → Answers) (position : Nat) (info : ContractInfo)
    (adaptor : AdaptorInfo) (rest : List (ContractInfo × AdaptorInfo)) :
    askedSteps oracles start answers position ((info, adaptor) :: rest) =
      (askedFor oracles info).map (answered start (answers position)) ++
        askedSteps oracles start answers (position + 1) rest :=
  rfl

/-- Answers about one position are not asked for at later ones. -/
theorem askedSteps_update (answers : Nat → Answers) (own : Answers) (position : Nat)
    (rest : List (ContractInfo × AdaptorInfo)) :
    askedSteps oracles start (Function.update answers position own) (position + 1) rest =
      askedSteps oracles start answers (position + 1) rest := by
  apply List.flatMap_congr
  rintro ⟨placed, place⟩ member
  have bound := (List.mem_zipIdx member).1
  rw [Function.update_of_ne (by dsimp only; omega)]

/-- One turn of the loop asks for the announcements of its contract info, and goes on
if too few attestations are given. -/
theorem runs_findClosable_cons {info : ContractInfo} {adaptor : AdaptorInfo}
    {rest : List (ContractInfo × AdaptorInfo)}
    {result : Option (ContractInfo × AdaptorInfo × List (Nat × OracleAttestation))}
    (run : Runs (World repliesLost) (findClosable manager oracles ((info, adaptor) :: rest))
      start steps result final) :
    ∃ own back, steps = (askedFor oracles info).map (answered start own) ++ back ∧
      if info.threshold ≤ (collect oracles own info.oracleAnnouncements.zipIdx).length then
        result = some (info, adaptor,
          collect oracles own info.oracleAnnouncements.zipIdx) ∧ back = []
      else Runs (World repliesLost) (findClosable manager oracles rest) start back result
        final := by
  unfold findClosable at run
  unfold askedFor
  split_ifs at run ⊢ with long
  · obtain ⟨results, middle, front, back, asking, later, rfl⟩ := (runs_bind _ _).mp run
    have distinct : (info.oracleAnnouncements.zipIdx.map Prod.snd).Nodup := by
      rw [List.zipIdx_map_snd]
      exact List.nodup_range'
    obtain ⟨rfl, own, rfl, kept⟩ := runs_indexedAttestations _ distinct asking
    refine ⟨own, back, rfl, ?_⟩
    dsimp only at later
    rw [kept] at later
    split_ifs at later ⊢
    · exact ⟨later.2.1, later.1⟩
    · exact later
  · have short := length_collect_le oracles info fun _ => .error (.ioError "")
    refine ⟨fun _ => .error (.ioError ""), steps, rfl, ?_⟩
    rw [if_neg (by omega)]
    exact run

/-- The loop asks as long as it has not found enough, and returns what it found. -/
theorem runs_findClosable {answers : Nat → Answers} {position : Nat}
    {infos : List (ContractInfo × AdaptorInfo)}
    {result : Option (ContractInfo × AdaptorInfo × List (Nat × OracleAttestation))}
    (run : Runs (World repliesLost) (findClosable manager oracles infos) start steps result
      final)
    (told : steps <+: askedSteps oracles start answers position infos) :
    result = firstClosable oracles answers position infos := by
  induction infos generalizing position steps with
  | nil =>
      obtain ⟨rfl, rfl, rfl⟩ := run
      rfl
  | cons placed rest ih =>
      obtain ⟨info, adaptor⟩ := placed
      obtain ⟨own, back, rfl, goesOn⟩ := runs_findClosable_cons run
      rw [askedSteps_cons] at told
      obtain ⟨agree, told⟩ := agree_of_prefix told
      unfold firstClosable
      by_cases long : info.threshold ≤ info.oracleAnnouncements.length
      · have same : collect oracles own info.oracleAnnouncements.zipIdx =
            collect oracles (answers position) info.oracleAnnouncements.zipIdx := by
          apply collect_congr
          intro asked member known
          apply agree asked
          rw [askedFor, if_pos long]
          exact List.mem_filter.mpr ⟨member, decide_eq_true known⟩
        rw [same] at goesOn
        split_ifs at goesOn ⊢ with enough
        · exact goesOn.1
        · exact ih goesOn told
      · have ownShort := length_collect_le oracles info own
        have short := length_collect_le oracles info (answers position)
        rw [if_neg (by omega)] at goesOn
        rw [if_neg (by omega)]
        exact ih goesOn told

/-- What the attestors answered in a run. -/
theorem exists_told {position : Nat} {infos : List (ContractInfo × AdaptorInfo)}
    {result : Option (ContractInfo × AdaptorInfo × List (Nat × OracleAttestation))}
    (run : Runs (World repliesLost) (findClosable manager oracles infos) start steps result
      final) :
    ∃ answers, steps <+: askedSteps oracles start answers position infos := by
  induction infos generalizing position steps with
  | nil =>
      obtain ⟨rfl, rfl, rfl⟩ := run
      exact ⟨fun _ _ => .error (.ioError ""), List.nil_prefix⟩
  | cons placed rest ih =>
      obtain ⟨info, adaptor⟩ := placed
      obtain ⟨own, back, rfl, goesOn⟩ := runs_findClosable_cons run
      have later : ∃ answers, back <+: askedSteps oracles start answers (position + 1) rest := by
        split_ifs at goesOn
        · rw [goesOn.2]
          exact ⟨fun _ _ => .error (.ioError ""), List.nil_prefix⟩
        · exact ih goesOn
      obtain ⟨answers, told⟩ := later
      refine ⟨Function.update answers position own, ?_⟩
      rw [askedSteps_cons, askedSteps_update, Function.update_self]
      exact (List.prefix_append_right_inj _).mpr told

end Runs

/-! ## What is returned -/

/-- What is found first is enough, nothing before it is, and it comes with all the
attestations that are given. -/
theorem firstClosable_eq_some_iff {oracles : List PublicKey} {answers : Nat → Answers}
    {position : Nat} {infos : List (ContractInfo × AdaptorInfo)} {info : ContractInfo}
    {adaptor : AdaptorInfo} {attestations : List (Nat × OracleAttestation)} :
    firstClosable oracles answers position infos = some (info, adaptor, attestations) ↔
      ∃ place, infos[place]? = some (info, adaptor) ∧
        Enough oracles info (answers (position + place)) ∧
        (∀ earlier < place, ∀ other, infos[earlier]? = some other →
          ¬ Enough oracles other.1 (answers (position + earlier))) ∧
        Collected oracles info (answers (position + place)) attestations := by
  induction infos generalizing position with
  | nil => simp [firstClosable]
  | cons placed rest ih =>
      obtain ⟨first, firstAdaptor⟩ := placed
      have collected := collected_collect oracles first (answers position)
      unfold firstClosable
      split_ifs with long
      · have enough := collected.enough_iff.mpr long
        constructor
        · intro found
          obtain ⟨rfl, same⟩ := Prod.mk.inj (Option.some.inj found)
          obtain ⟨rfl, rfl⟩ := Prod.mk.inj same
          exact ⟨0, rfl, enough, by simp, collected⟩
        · rintro ⟨place, found, -, none, isCollected⟩
          cases place with
          | zero =>
              obtain ⟨rfl, rfl⟩ := Prod.mk.inj (Option.some.inj found)
              rw [isCollected.unique collected]
          | succ place => exact absurd enough (none 0 (by omega) _ rfl)
      · have few : ¬ Enough oracles first (answers position) :=
          fun enough => long (collected.enough_iff.mp enough)
        rw [ih]
        constructor
        · rintro ⟨place, found, enough, none, isCollected⟩
          rw [Nat.add_right_comm] at enough isCollected
          refine ⟨place + 1, found, enough, ?_, isCollected⟩
          intro earlier before other otherFound
          cases earlier with
          | zero =>
              obtain rfl := Option.some.inj otherFound
              exact few
          | succ earlier =>
              have later := none earlier (by omega) other otherFound
              rw [Nat.add_right_comm] at later
              exact later
        · rintro ⟨place, found, enough, none, isCollected⟩
          cases place with
          | zero =>
              obtain ⟨rfl, rfl⟩ := Prod.mk.inj (Option.some.inj found)
              exact absurd enough few
          | succ place =>
              refine ⟨place, found, ?_, ?_, ?_⟩
              · rw [Nat.add_right_comm]
                exact enough
              · intro earlier before other otherFound
                rw [Nat.add_right_comm]
                exact none (earlier + 1) (by omega) other otherFound
              · rw [Nat.add_right_comm]
                exact isCollected

/-- Something is found if enough attestations are given for some contract info. -/
theorem firstClosable_isSome_iff {oracles : List PublicKey} {answers : Nat → Answers}
    {position : Nat} {infos : List (ContractInfo × AdaptorInfo)} :
    (∃ closable, firstClosable oracles answers position infos = some closable) ↔
      ∃ place placed, infos[place]? = some placed ∧
        Enough oracles placed.1 (answers (position + place)) := by
  constructor
  · rintro ⟨⟨info, adaptor, attestations⟩, found⟩
    obtain ⟨place, placed, enough, -⟩ := firstClosable_eq_some_iff.mp found
    exact ⟨place, _, placed, enough⟩
  · intro somewhere
    classical
    obtain ⟨⟨info, adaptor⟩, placed, enough⟩ := Nat.find_spec somewhere
    refine ⟨_, firstClosable_eq_some_iff.mpr
      ⟨Nat.find somewhere, placed, enough, ?_, collected_collect oracles info _⟩⟩
    intro earlier before other otherPlaced otherEnough
    exact Nat.find_min somewhere before ⟨other, otherPlaced, otherEnough⟩

/-- The elements at a position of both lists, by the list of pairs. -/
theorem closableAt_iff {oracles : List PublicKey} {contract : SignedContract}
    {answers : Nat → Answers} {position : Nat} {info : ContractInfo}
    {adaptor : AdaptorInfo} :
    ClosableAt oracles contract answers position info adaptor ↔
      (contract.acceptedContract.offeredContract.contractInfo.zip
        contract.acceptedContract.adaptorInfos)[position]? = some (info, adaptor) ∧
      Enough oracles info (answers position) := by
  rw [List.getElem?_zip_eq_some, and_assoc]
  constructor
  · rintro ⟨infoAt, adaptorAt, enough⟩
    exact ⟨infoAt, adaptorAt, enough⟩
  · rintro ⟨infoAt, adaptorAt, enough⟩
    exact ⟨infoAt, adaptorAt, enough⟩

/-- A look-up returns the first contract info for which enough oracles that the manager
knows answer, with the answers they give in the order of their announcements. -/
theorem getClosableContractInfo_iff {repliesLost : Prop} (manager : Manager)
    (oracles : List PublicKey) (contract : SignedContract) {start final : ContractStore}
    {steps : List WalletStep}
    {result : Except DlcError
      (Option (ContractInfo × AdaptorInfo × List (Nat × OracleAttestation)))}
    (run : Runs (World repliesLost)
      (getClosableContractInfo { manager with oracles := some oracles } contract).run start
      steps result final) :
    (∃ answers, ToldAnswers oracles contract start steps answers) ∧
    ∀ answers, ToldAnswers oracles contract start steps answers →
      (∃ found, result = .ok found) ∧
      ((∃ closable, result = .ok (some closable)) ↔
        ∃ position info adaptor,
          ClosableAt oracles contract answers position info adaptor) ∧
      ∀ info adaptor attestations, result = .ok (some (info, adaptor, attestations)) ↔
        ∃ position, ClosableAt oracles contract answers position info adaptor ∧
          (∀ earlier < position, ∀ other otherAdaptor,
            ¬ ClosableAt oracles contract answers earlier other otherAdaptor) ∧
          Collected oracles info (answers position) attestations := by
  obtain ⟨found, middle, front, back, run, ended, rfl⟩ := (runs_bind _ _).mp run
  obtain ⟨rfl, rfl, rfl⟩ := ended
  rw [List.append_nil]
  refine ⟨exists_told run, fun answers told => ⟨⟨found, rfl⟩, ?_, ?_⟩⟩
  all_goals
    simp only [Except.ok.injEq, closableAt_iff, runs_findClosable run told]
  · rw [firstClosable_isSome_iff]
    simp only [Nat.zero_add, Prod.exists]
  · intro info adaptor attestations
    rw [firstClosable_eq_some_iff]
    simp only [Nat.zero_add, Prod.forall, not_and, and_assoc]

/-- A contract with two contract infos, the second with an oracle that the manager does
not know. -/
def sampleTwoInfos : SignedContract :=
  ⟨⟨⟨.replicate 32 1,
      [⟨[⟨"oracle", "first"⟩, ⟨"other", "first"⟩], 2⟩,
        ⟨[⟨"stranger", "second"⟩, ⟨"oracle", "second"⟩], 1⟩], "peer"⟩,
    [.enum, .numerical], ⟨⟨"fund", 0⟩, ⟨"refund", 0⟩, "script"⟩, .replicate 32 2⟩, none⟩

/-- Only one of two known oracles answers. -/
def answeringOthers : Others where
  down _ := false
  answers
    | .getAttestation oracle eventId =>
        if oracle = "oracle" then .ok ⟨oracle, ["signature"], [eventId]⟩
        else .error (.oracleError "unreachable")
    | request => (sampleOthers (fun _ => 0) true 0 fun _ => false).answers request

def sampleLookUp : List WalletStep ×
    Except DlcError (Option (ContractInfo × AdaptorInfo × List (Nat × OracleAttestation))) ×
    ContractStore :=
  eval (serve answeringOthers)
    (getClosableContractInfo { sampleManager with oracles := some ["oracle", "other"] }
      sampleTwoInfos).run (sampleStore (.confirmed sampleTwoInfos))

theorem runs_sampleLookUp :
    Runs (World False)
      (getClosableContractInfo { sampleManager with oracles := some ["oracle", "other"] }
        sampleTwoInfos).run (sampleStore (.confirmed sampleTwoInfos))
      sampleLookUp.1 sampleLookUp.2.1 sampleLookUp.2.2 := by
  unfold sampleLookUp
  with_reducible exact runs_eval (serve answeringOthers) (world_serve False _) _ _

/-- The second contract info is returned, with the index that its oracle has there. -/
theorem getClosableContractInfo_iff_sampleLookUp :
    ∃ answers position,
      ClosableAt ["oracle", "other"] sampleTwoInfos answers position
        ⟨[⟨"stranger", "second"⟩, ⟨"oracle", "second"⟩], 1⟩ .numerical ∧
      Collected ["oracle", "other"] ⟨[⟨"stranger", "second"⟩, ⟨"oracle", "second"⟩], 1⟩
        (answers position) [(1, ⟨"oracle", ["signature"], ["second"]⟩)] := by
  obtain ⟨⟨answers, told⟩, returns⟩ := getClosableContractInfo_iff sampleManager
    ["oracle", "other"] sampleTwoInfos runs_sampleLookUp
  have returned : sampleLookUp.2.1 = .ok (some
      (⟨[⟨"stranger", "second"⟩, ⟨"oracle", "second"⟩], 1⟩, .numerical,
        [(1, ⟨"oracle", ["signature"], ["second"]⟩)])) := by
    decide +kernel
  obtain ⟨position, closable, -, collected⟩ :=
    ((returns answers told).2.2 _ _ _).mp returned
  exact ⟨answers, position, closable, collected⟩

end LinkManager

end DlcStack

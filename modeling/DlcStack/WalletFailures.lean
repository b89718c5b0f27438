import DlcStack.WalletNotifications

/-!
# Notifications that are skipped

The loop that reads the reported contracts goes on when a request fails; the loops that
post them return.  A contract whose look-up or POST fails so takes the contracts behind it
with it.
-/

namespace DlcStack

namespace Wallet

open Program LinkManager

/-- The contracts that the manager reports to `periodic_check`. -/
def updatedContracts (wallet : RouterWallet) :
    Program WalletRequest WalletRequest.Answer (List Report) := do
  match ← (LinkManager.periodicCheck wallet.manager).run with
  | .ok updated => return updated
  | .error _ => return []

/-- What `periodic_check` does with the contracts that the manager reports. -/
def notifyReported (wallet : RouterWallet) (attestors : List PublicKey)
    (updated : List Report) : WalletM String := do
  let (confirmed, closed) ← ExceptT.lift (readReported updated)
  let _ ← postEach wallet attestors wallet.fundedUrl confirmed
  let _ ← postEach wallet attestors wallet.closedUrl closed
  return "Success running periodic check"

theorem periodicCheck_eq {wallet : RouterWallet} {attestors : List PublicKey}
    (known : wallet.manager.oracles = some attestors) :
    periodicCheck wallet =
      ExceptT.lift (updatedContracts wallet) >>= notifyReported wallet attestors := by
  unfold periodicCheck
  rw [known]
  rfl

/-- The answer to each request. -/
abbrev Assignment := (request : WalletRequest) → request.Answer

/-- Others that answer as assigned. -/
def assigned (answers : Assignment) :
    Responder ContractStore WalletRequest WalletRequest.Answer :=
  fun store request => (answers request, store)

/-- What a reported contract is posted with. -/
structure Notice where
  url : String
  uuid : String
  txid : Txid
  deriving DecidableEq, Repr

section Assigned

variable (wallet : RouterWallet) (attestors : List PublicKey) (answers : Assignment)

/-- The notice of a reported contract that is found confirmed or pre-closed. -/
def notice? (report : Report) : Option Notice :=
  match answers (.getContract report.1) with
  | .ok (some (.confirmed contract)) =>
      some ⟨wallet.fundedUrl, report.2, contract.acceptedContract.dlcTransactions.fund.txid⟩
  | .ok (some (.preClosed contract)) =>
      some ⟨wallet.closedUrl, report.2, contract.signedCet.txid⟩
  | _ => none

/-- The notices in the order of the two loops. -/
def notices (updated : List Report) : List Notice :=
  let found := updated.filterMap (notice? wallet answers)
  found.filter (·.url = wallet.fundedUrl) ++ found.filter (·.url = wallet.closedUrl)

/-- All attestors report this chain of the event. -/
def AgreeOn (uuid chain : String) : Prop :=
  attestors ≠ [] ∧
    ∀ attestor ∈ attestors, answers (.getChain attestor uuid) = .ok chain

/-- The own requests of a notice succeed. -/
def Succeeds (notice : Notice) : Prop :=
  ∃ chain, AgreeOn attestors answers notice.uuid chain ∧
    answers (.post notice.url ⟨notice.uuid, notice.txid, wallet.toJson chain⟩) = .ok ()

end Assigned

/-- The step posts the notice, with success. -/
def postsNotice (notice : Notice) (step : WalletStep) : Bool :=
  match step.request with
  | .post url body =>
      url = notice.url && body.uuid = notice.uuid && body.btcTxId = notice.txid &&
        !failed step
  | _ => false

def Posted (steps : List WalletStep) (notice : Notice) : Prop :=
  ∃ step ∈ steps, postsNotice notice step = true

instance (steps : List WalletStep) (notice : Notice) : Decidable (Posted steps notice) :=
  inferInstanceAs (Decidable (∃ step ∈ steps, postsNotice notice step = true))

/-- Behind a notice that fails, none succeeds but those that are also in front of it. -/
def NoneSkipped (succeeds : Notice → Prop) (notices : List Notice) : Prop :=
  ∀ front failing back, notices = front ++ failing :: back → ¬ succeeds failing →
    ∀ notice ∈ back, succeeds notice → notice ∈ front

/-! ## The loops -/

section Loops

variable {wallet : RouterWallet} {attestors : List PublicKey} {answers : Assignment}
  {start final : ContractStore} {steps : List WalletStep}

/-- No step posts. -/
def Postless (steps : List WalletStep) : Prop :=
  ∀ step ∈ steps, step.request.isPost = false

theorem not_postsNotice {step : WalletStep} (silent : step.request.isPost = false)
    (notice : Notice) : postsNotice notice step = false := by
  obtain ⟨before, request, answer, after⟩ := step
  cases request <;> first
    | rfl
    | cases silent

theorem not_posted (silent : Postless steps) (notice : Notice) : ¬ Posted steps notice := by
  rintro ⟨step, member, posts⟩
  rw [not_postsNotice (silent step member) notice] at posts
  cases posts

theorem posted_nil {notice : Notice} : ¬ Posted [] notice := by
  simp [Posted]

theorem posted_append {front back : List WalletStep} {notice : Notice} :
    Posted (front ++ back) notice ↔ Posted front notice ∨ Posted back notice := by
  simp only [Posted, List.mem_append, or_and_right, exists_or]

theorem posted_post {before after : ContractStore} {url : String} {body : Notification}
    {answer : Except DlcError Unit} {later : List WalletStep} {notice : Notice} :
    Posted (⟨before, .post url body, answer, after⟩ :: later) notice ↔
      notice = ⟨url, body.uuid, body.btcTxId⟩ ∧ answer = .ok () ∨ Posted later notice := by
  obtain ⟨target, uuid, txid⟩ := notice
  simp only [Posted, List.exists_mem_cons_iff]
  refine or_congr_left ?_
  rw [Notice.mk.injEq, @eq_comm _ target, @eq_comm _ uuid, @eq_comm _ txid]
  cases answer <;> simp [postsNotice, failed, and_assoc]

/-- The entry of a loop as a notice. -/
def noticeAt (url : String) (entry : String × Txid) : Notice :=
  ⟨url, entry.1, entry.2⟩

/-- What is posted of a contract are its notices of either kind. -/
theorem map_noticeAt_posts (wallet : RouterWallet) (answers : Assignment)
    (report : Report) :
    (fundedPost? report.2 (answers (.getContract report.1))).toList.map
        (noticeAt wallet.fundedUrl) =
      (notice? wallet answers report).toList.filter (·.url = wallet.fundedUrl) ∧
    (closedPost? report.2 (answers (.getContract report.1))).toList.map
        (noticeAt wallet.closedUrl) =
      (notice? wallet answers report).toList.filter (·.url = wallet.closedUrl) := by
  have different := fundedUrl_ne_closedUrl wallet
  unfold notice?
  rcases answers (.getContract report.1) with error | _ | contract
  · exact ⟨rfl, rfl⟩
  · exact ⟨rfl, rfl⟩
  · cases contract <;> simp [fundedPost?, closedPost?, noticeAt, different,
      different.symm]

/-- The first loop lists the notices of either kind. -/
theorem runs_readReported_assigned (wallet : RouterWallet) {updated : List Report}
    {lists : List (String × Txid) × List (String × Txid)}
    (run : Runs (assigned answers).env (readReported updated) start steps lists final) :
    Postless steps ∧
      lists.1.map (noticeAt wallet.fundedUrl) ++ lists.2.map (noticeAt wallet.closedUrl) =
        notices wallet answers updated := by
  suffices split : Postless steps ∧
      lists.1.map (noticeAt wallet.fundedUrl) =
        (updated.filterMap (notice? wallet answers)).filter (·.url = wallet.fundedUrl) ∧
      lists.2.map (noticeAt wallet.closedUrl) =
        (updated.filterMap (notice? wallet answers)).filter (·.url = wallet.closedUrl) by
    obtain ⟨silent, funded, closed⟩ := split
    exact ⟨silent, by rw [funded, closed]; rfl⟩
  induction updated generalizing start steps lists final with
  | nil =>
      obtain ⟨rfl, rfl, rfl⟩ := run
      exact ⟨by simp [Postless], rfl, rfl⟩
  | cons report rest ih =>
      obtain ⟨answer, middle, confirmed, closed, later, served, others, rfl, rfl⟩ :=
        runs_readReported_cons run
      cases served
      obtain ⟨silent, confirmedEq, closedEq⟩ := ih others
      obtain ⟨firstEq, secondEq⟩ := map_noticeAt_posts wallet answers report
      have listed : (report :: rest).filterMap (notice? wallet answers) =
          (notice? wallet answers report).toList ++
            rest.filterMap (notice? wallet answers) := by
        cases found : notice? wallet answers report <;> simp [found]
      rw [listed, List.filter_append, List.filter_append, List.map_append, List.map_append,
        firstEq, secondEq, confirmedEq, closedEq]
      refine ⟨fun step member => ?_, rfl, rfl⟩
      rcases List.mem_cons.mp member with rfl | member
      · rfl
      · exact silent step member

/-- What the attestors answer, in their order. -/
theorem runs_getChains_assigned {uuid : String} {found : List (Option String)}
    (run : Runs (assigned answers).env (attestors.mapM fun attestor => do
      let answer ← (LinkManager.ask (.getChain attestor uuid)).run
      return answer.toOption) start steps found final) :
    Postless steps ∧
      found = attestors.map fun attestor => (answers (.getChain attestor uuid)).toOption := by
  induction attestors generalizing start steps found final with
  | nil =>
      obtain ⟨rfl, rfl, rfl⟩ := run
      exact ⟨by simp [Postless], rfl⟩
  | cons attestor rest ih =>
      obtain ⟨chain, others, middle, front, back, first, second, rfl, rfl⟩ :=
        (runs_mapM_cons _ _ _).mp run
      obtain ⟨answer, _, later, served, rfl, rfl, rfl, rfl⟩ := first
      cases served
      obtain ⟨silent, rfl⟩ := ih second
      refine ⟨fun step member => ?_, rfl⟩
      rcases List.mem_cons.mp member with rfl | member
      · rfl
      · exact silent step member

/-- The look-up gives the chain that all attestors report, and fails without one. -/
theorem runs_getChainFromAttestors_assigned {uuid : String} {result : Except String String}
    (run : Runs (assigned answers).env (getChainFromAttestors wallet attestors uuid).run
      start steps result final) :
    Postless steps ∧
      ((∃ chain, AgreeOn attestors answers uuid chain ∧ result = .ok (wallet.toJson chain)) ∨
        (¬ ∃ chain, AgreeOn attestors answers uuid chain) ∧
          ∃ error, result = .error error) := by
  obtain ⟨found, middle, front, back, first, second, rfl⟩ := (runs_run_lift_bind _ _).mp run
  obtain ⟨silent, rfl⟩ := runs_getChains_assigned first
  cases attestors with
  | nil =>
      obtain ⟨rfl, rfl, rfl⟩ := second
      rw [List.append_nil]
      refine ⟨silent, .inr ⟨?_, _, rfl⟩⟩
      rintro ⟨chain, someone, -⟩
      exact someone rfl
  | cons attestor rest =>
      rw [List.map_cons] at second
      dsimp only at second
      split_ifs at second with same
      · cases told : (answers (.getChain attestor uuid)).toOption with
        | none =>
            rw [told] at second
            obtain ⟨rfl, rfl, rfl⟩ := second
            rw [List.append_nil]
            refine ⟨silent, .inr ⟨?_, _, rfl⟩⟩
            rintro ⟨chain, -, all⟩
            rw [all attestor List.mem_cons_self] at told
            cases told
        | some chain =>
            rw [told] at second same
            obtain ⟨rfl, rfl, rfl⟩ := second
            rw [List.append_nil]
            refine ⟨silent, .inl ⟨chain, ⟨List.cons_ne_nil _ _, fun other member => ?_⟩, rfl⟩⟩
            have tells : (answers (.getChain other uuid)).toOption = some chain := by
              rcases List.mem_cons.mp member with rfl | member
              · exact told
              · exact of_decide_eq_true (List.all_eq_true.mp same _ (List.mem_map_of_mem member))
            cases answered : answers (.getChain other uuid) with
            | error error =>
                rw [answered] at tells
                cases tells
            | ok text =>
                rw [answered] at tells
                cases tells
                rfl
      · obtain ⟨rfl, rfl, rfl⟩ := second
        rw [List.append_nil]
        refine ⟨silent, .inr ⟨?_, _, rfl⟩⟩
        rintro ⟨chain, -, all⟩
        refine same (List.all_eq_true.mpr fun other member => ?_)
        obtain ⟨another, inRest, rfl⟩ := List.mem_map.mp member
        rw [all attestor List.mem_cons_self, all another (List.mem_cons_of_mem _ inRest)]
        simp

theorem AgreeOn.unique {uuid chain other : String} (agree : AgreeOn attestors answers uuid chain)
    (also : AgreeOn attestors answers uuid other) : other = chain := by
  obtain ⟨attestor, member⟩ := List.exists_mem_of_ne_nil attestors agree.1
  exact Except.ok.inj ((also.2 attestor member).symm.trans (agree.2 attestor member))

/-- How far notices are posted: to their end, or to the first that fails. -/
def PostsUpTo {α : Type} (wallet : RouterWallet) (attestors : List PublicKey)
    (answers : Assignment) (entries : List Notice) (steps : List WalletStep)
    (result : Except String α) : Prop :=
  ∃ front back, entries = front ++ back ∧
    (∀ notice ∈ front, Succeeds wallet attestors answers notice) ∧
    (∀ notice, Posted steps notice ↔ notice ∈ front) ∧
    ((∃ value, result = .ok value) ∧ back = [] ∨
      (∃ error, result = .error error) ∧ ∃ failing rest, back = failing :: rest ∧
        ¬ Succeeds wallet attestors answers failing)

theorem posts_nothing {α : Type} (value : α) :
    PostsUpTo wallet attestors answers [] [] (.ok value : Except String α) :=
  ⟨[], [], rfl, by simp, by simp [posted_nil], .inl ⟨⟨value, rfl⟩, rfl⟩⟩

/-- A loop posts its entries up to the first that fails. -/
theorem runs_postEach_assigned {url : String} {entries : List (String × Txid)}
    {result : Except String Unit}
    (run : Runs (assigned answers).env (postEach wallet attestors url entries).run start
      steps result final) :
    PostsUpTo wallet attestors answers (entries.map (noticeAt url)) steps result := by
  induction entries generalizing start steps with
  | nil =>
      obtain ⟨rfl, rfl, rfl⟩ := run
      exact posts_nothing ()
  | cons entry rest ih =>
      obtain ⟨uuid, txid⟩ := entry
      rcases runs_run_bind _ _ run with
        ⟨error, looked, rfl⟩ | ⟨json, middle, front, back, looked, second, rfl⟩
      · obtain ⟨silent, ⟨_, _, ⟨⟩⟩ | ⟨unknown, -⟩⟩ :=
          runs_getChainFromAttestors_assigned looked
        refine ⟨[], _, rfl, by simp, by simpa using not_posted silent,
          .inr ⟨⟨_, rfl⟩, _, _, rfl, ?_⟩⟩
        rintro ⟨chain, agree, -⟩
        exact unknown ⟨chain, agree⟩
      · obtain ⟨silent, ⟨chain, agree, ⟨⟩⟩ | ⟨-, _, ⟨⟩⟩⟩ :=
          runs_getChainFromAttestors_assigned looked
        obtain ⟨answer, after, later, served, rfl, remaining⟩ := second
        cases served
        cases replied : answers (.post url ⟨uuid, txid, wallet.toJson chain⟩) with
        | error error =>
            rw [replied] at remaining
            obtain ⟨rfl, rfl, rfl⟩ := remaining
            refine ⟨[], _, rfl, by simp, fun notice => ?_, .inr ⟨⟨_, rfl⟩, _, _, rfl, ?_⟩⟩
            · rw [posted_append, posted_post]
              simp [not_posted silent, posted_nil]
            · rintro ⟨other, also, accepted⟩
              obtain rfl := agree.unique also
              rw [show answers (.post url ⟨uuid, txid, wallet.toJson other⟩) = .ok () from
                accepted] at replied
              cases replied
        | ok reply =>
            rw [replied] at remaining
            obtain ⟨front', back', split, succeed, posted, ended⟩ := ih remaining
            refine ⟨⟨url, uuid, txid⟩ :: front', back', by rw [List.map_cons, split]; rfl,
              ?_, fun notice => ?_, ended⟩
            · rintro notice (_ | ⟨_, member⟩)
              · exact ⟨chain, agree, replied⟩
              · exact succeed notice member
            · rw [posted_append, posted_post, posted]
              simp [not_posted silent]

/-- Two loops one after the other. -/
theorem PostsUpTo.append {α : Type} {firstEntries secondEntries : List Notice}
    {firstSteps secondSteps : List WalletStep} {value : Unit} {result : Except String α}
    (first : PostsUpTo wallet attestors answers firstEntries firstSteps
      (.ok value : Except String Unit))
    (second : PostsUpTo wallet attestors answers secondEntries secondSteps result) :
    PostsUpTo wallet attestors answers (firstEntries ++ secondEntries)
      (firstSteps ++ secondSteps) result := by
  obtain ⟨entries, back, rfl, succeed, posted, ⟨-, rfl⟩ | ⟨⟨_, ⟨⟩⟩, -⟩⟩ := first
  obtain ⟨front, back, rfl, alsoSucceed, alsoPosted, ended⟩ := second
  refine ⟨entries ++ front, back, by simp, fun notice member => ?_, fun notice => ?_, ended⟩
  · rcases List.mem_append.mp member with member | member
    · exact succeed notice member
    · exact alsoSucceed notice member
  · rw [posted_append, posted, alsoPosted, List.mem_append]

/-- A loop that fails ends the check. -/
theorem PostsUpTo.stop {α β : Type} {firstEntries secondEntries : List Notice}
    {error : String}
    (first : PostsUpTo wallet attestors answers firstEntries steps
      (.error error : Except String α)) :
    PostsUpTo wallet attestors answers (firstEntries ++ secondEntries) steps
      (.error error : Except String β) := by
  obtain ⟨front, back, rfl, succeed, posted, ⟨⟨_, ⟨⟩⟩, -⟩ | ⟨-, failing, rest, rfl, fails⟩⟩ :=
    first
  exact ⟨front, failing :: (rest ++ secondEntries), by simp, succeed, posted,
    .inr ⟨⟨error, rfl⟩, failing, _, rfl, fails⟩⟩

/-- The notices are posted up to the first that fails. -/
theorem runs_notifyReported {updated : List Report} {result : Except String String}
    (run : Runs (assigned answers).env (notifyReported wallet attestors updated).run start
      steps result final) :
    PostsUpTo wallet attestors answers (notices wallet answers updated) steps result := by
  obtain ⟨lists, middle, front, back, read, second, rfl⟩ := (runs_run_lift_bind _ _).mp run
  obtain ⟨silent, listed⟩ := runs_readReported_assigned wallet read
  have posts : PostsUpTo wallet attestors answers (notices wallet answers updated) back
      result := by
    rw [← listed, ← List.append_nil (lists.2.map _)]
    rcases runs_run_bind _ _ second with
      ⟨error, funded, rfl⟩ | ⟨_, middle, early, late, funded, third, rfl⟩
    · exact (runs_postEach_assigned funded).stop
    · refine (runs_postEach_assigned funded).append ?_
      rcases runs_run_bind _ _ third with
        ⟨error, closed, rfl⟩ | ⟨_, middle, late, empty, closed, last, rfl⟩
      · exact (runs_postEach_assigned closed).stop
      · obtain ⟨rfl, rfl, rfl⟩ := last
        exact (runs_postEach_assigned closed).append (posts_nothing _)
  obtain ⟨front', back', split, succeed, posted, ended⟩ := posts
  refine ⟨front', back', split, succeed, fun notice => ?_, ended⟩
  rw [posted_append, posted]
  simp [not_posted silent]

/-- The notices of the reported contracts. -/
theorem mem_notices_iff {updated : List Report} {notice : Notice} :
    notice ∈ notices wallet answers updated ↔
      ∃ report ∈ updated, notice? wallet answers report = some notice := by
  have either (report : Report) (found : notice? wallet answers report = some notice) :
      notice.url = wallet.fundedUrl ∨ notice.url = wallet.closedUrl := by
    unfold notice? at found
    split at found <;> cases found
    · exact .inl rfl
    · exact .inr rfl
  simp only [notices, List.mem_append, List.mem_filter, List.mem_filterMap, decide_eq_true_eq]
  constructor
  · rintro (⟨found, -⟩ | ⟨found, -⟩) <;> exact found
  · rintro ⟨report, member, found⟩
    exact (either report found).imp (⟨⟨report, member, found⟩, ·⟩) (⟨⟨report, member, found⟩, ·⟩)

end Loops

/-- Every reported contract whose own requests succeed is posted exactly if none is behind
one that fails, in the order of the loops. -/
theorem notifyReported_posts_iff {wallet : RouterWallet} {attestors : List PublicKey}
    {answers : Assignment} {updated : List Report} {start final : ContractStore}
    {steps : List WalletStep} {result : Except String String}
    (run : Runs (assigned answers).env (notifyReported wallet attestors updated).run start
      steps result final) :
    (∀ report ∈ updated, ∀ notice, notice? wallet answers report = some notice →
        Succeeds wallet attestors answers notice → Posted steps notice) ↔
      NoneSkipped (Succeeds wallet attestors answers) (notices wallet answers updated) := by
  obtain ⟨front, back, split, succeed, posted, ended⟩ := runs_notifyReported run
  constructor
  · intro all earlier failing later split' fails notice member succeeds
    have listed : notice ∈ notices wallet answers updated := by
      simp [split', member]
    obtain ⟨report, reported, found⟩ := mem_notices_iff.mp listed
    have inFront := (posted notice).mp (all report reported notice found succeeds)
    rcases List.append_eq_append_iff.mp (split.symm.trans split') with
      ⟨between, rfl, -⟩ | ⟨between, rfl, tail⟩
    · exact List.mem_append_left _ inFront
    · cases between with
      | nil => simpa using inFront
      | cons head rest =>
          obtain ⟨rfl, -⟩ := List.cons.inj tail
          exact absurd (succeed failing (by simp)) fails
  · intro clear report reported notice found succeeds
    have listed := mem_notices_iff.mpr ⟨report, reported, found⟩
    refine (posted notice).mpr ?_
    rw [split] at listed
    rcases List.mem_append.mp listed with member | member
    · exact member
    · rcases ended with ⟨-, rfl⟩ | ⟨-, failing, rest, rfl, fails⟩
      · cases member
      · rcases List.mem_cons.mp member with rfl | member
        · exact absurd succeeds fails
        · exact clear front failing rest split fails notice member succeeds

/-! ## Two reported contracts -/

/-- The chain of one event can be looked up, that of others can not. -/
def sampleAnswers : Assignment
  | .getContract id => .ok (some (.confirmed (sampleSigned id id)))
  | .getChain _ uuid =>
      if uuid = "event" then .ok "chain" else .error (.ioError "unreachable")
  | .post .. => .ok ()
  | _ => .error (.ioError "not answered")

/-- The reported contracts are posted. -/
def sampleNotifying (uuids : List String) :
    List WalletStep × Except String String × ContractStore :=
  eval (assigned sampleAnswers)
    (notifyReported sampleWallet ["oracle"] (uuids.map (.replicate 32 2, ·))).run
    UniqueTable.empty

theorem runs_sampleNotifying (uuids : List String) :
    Runs (assigned sampleAnswers).env
      (notifyReported sampleWallet ["oracle"] (uuids.map (.replicate 32 2, ·))).run
      UniqueTable.empty (sampleNotifying uuids).1 (sampleNotifying uuids).2.1
      (sampleNotifying uuids).2.2 :=
  (runs_responder_iff _ _).mpr rfl

def sampleNotice : Notice :=
  ⟨sampleWallet.fundedUrl, "event", "fund"⟩

theorem succeeds_sampleNotice :
    Succeeds sampleWallet ["oracle"] sampleAnswers sampleNotice :=
  ⟨"chain", ⟨by decide, by decide⟩, rfl⟩

/-- The contract in front of the one that fails is posted. -/
theorem notifyReported_posts_sampleNotifying :
    Posted (sampleNotifying ["event", "other"]).1 sampleNotice := by
  refine (notifyReported_posts_iff (runs_sampleNotifying _)).mpr ?_
    (.replicate 32 2, "event") (by decide) sampleNotice (by decide) succeeds_sampleNotice
  intro front failing back split fails notice member _
  have two : notices sampleWallet sampleAnswers
      (["event", "other"].map (.replicate 32 2, ·)) =
      [sampleNotice, ⟨sampleWallet.fundedUrl, "other", "fund"⟩] := by
    decide +kernel
  rw [two] at split
  rcases front with - | ⟨head, - | ⟨next, rest⟩⟩
  · obtain ⟨rfl, -⟩ := List.cons.inj split
    exact absurd succeeds_sampleNotice fails
  · obtain ⟨-, tail⟩ := List.cons.inj split
    obtain ⟨-, rfl⟩ := List.cons.inj tail
    cases member
  · simp at split

/-- The contract behind the one that fails is not posted. -/
theorem not_notifyReported_posts :
    ¬ ∀ (wallet : RouterWallet) (attestors : List PublicKey) (answers : Assignment)
        (updated : List Report) (start final : ContractStore) (steps : List WalletStep)
        (result : Except String String),
        Runs (assigned answers).env (notifyReported wallet attestors updated).run start steps
          result final →
        ∀ report ∈ updated, ∀ notice, notice? wallet answers report = some notice →
          Succeeds wallet attestors answers notice → Posted steps notice := by
  intro claimed
  have posted := claimed _ _ _ _ _ _ _ _ (runs_sampleNotifying ["other", "event"])
    (.replicate 32 2, "event") (by decide) sampleNotice (by decide) succeeds_sampleNotice
  exact absurd posted (by decide +kernel)

end Wallet

end DlcStack

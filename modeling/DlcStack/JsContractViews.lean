import DlcStack.JsContracts
import DlcStack.ManagerLifecycle

/-!
# What the browser sees of an accepted contract

`from_contract` finds the accepted part of a contract in two matches over the states,
one for each of two fields.  They agree in all states but one: for a pre-closed
contract the second match returns the field of the first.
-/

namespace DlcStack

/-- The accepted part that a contract carries. -/
def DlcContract.acceptedPart? : DlcContract → Option AcceptedContract
  | .accepted contract => some contract
  | .signed contract => some contract.acceptedContract
  | .confirmed contract => some contract.acceptedContract
  | .refunded contract => some contract.acceptedContract
  | .failedSign contract => some contract.acceptedContract
  | .preClosed contract => some contract.signedContract.acceptedContract
  | _ => none

namespace JsDlcInterface

open LinkManager

/-- `from_contract` with the collateral as a `u64`. -/
abbrev view (collateral : AcceptedContract → UInt64) (contract : DlcContract) :
    JsContract :=
  .fromContract (fun accepted => (collateral accepted).toNat) contract

/-- The view shows the fund transaction and the collateral of the accepted part. -/
def Shows (collateral : AcceptedContract → UInt64) (accepted : AcceptedContract)
    (shown : JsContract) : Prop :=
  shown.txId = accepted.dlcTransactions.fund.txid ∧
    shown.acceptorCollateral = (collateral accepted).toNat.repr

/-- Two views agree in the two fields. -/
def SameFields (first second : JsContract) : Prop :=
  first.txId = second.txId ∧ first.acceptorCollateral = second.acceptorCollateral

/-- The text of a transaction identifier has two digits for each of 32 bytes. -/
def IsTxid (txid : Txid) : Prop :=
  txid.length = 64

section Views

variable (collateral : AcceptedContract → UInt64) {accepted : AcceptedContract}

/-- No amount is written like a transaction identifier. -/
theorem repr_ne_txid {txid : Txid} (isTxid : IsTxid txid) (amount : UInt64) :
    amount.toNat.repr ≠ txid := by
  rintro rfl
  have short : amount.toNat.repr.length ≤ 20 :=
    (Nat.length_repr_le_iff (by decide)).mpr (by have := amount.toNat_lt; omega)
  unfold IsTxid at isTxid
  omega

/-- The two fields of the view of a contract that carries an accepted part. -/
theorem view_fields {contract : DlcContract}
    (carries : contract.acceptedPart? = some accepted) :
    (view collateral contract).acceptorCollateral = (collateral accepted).toNat.repr ∧
      (view collateral contract).txId =
        if contract.preClosed? = none then accepted.dlcTransactions.fund.txid
        else (collateral accepted).toNat.repr := by
  cases contract <;> cases carries <;> exact ⟨rfl, rfl⟩

theorem shows_view_iff {contract : DlcContract}
    (carries : contract.acceptedPart? = some accepted)
    (isTxid : IsTxid accepted.dlcTransactions.fund.txid) :
    Shows collateral accepted (view collateral contract) ↔
      contract.preClosed? = none := by
  obtain ⟨collateralField, txField⟩ := view_fields collateral carries
  rw [Shows, collateralField, txField]
  split_ifs with state
  · simp [state]
  · simp [state, repr_ne_txid isTxid]

/-- A contract that moves on keeps its accepted part, and is not pre-closed before. -/
theorem acceptedPart?_of_follows {manager : Manager} {steps : List WalletStep}
    {source target : DlcContract} {later : AcceptedContract}
    (follows : Follows manager steps source target)
    (carries : source.acceptedPart? = some accepted)
    (carriesLater : target.acceptedPart? = some later) :
    later = accepted ∧ source.preClosed? = none := by
  cases follows with
  | checked warranted =>
      cases warranted <;> cases carries <;> cases carriesLater <;> exact ⟨rfl, rfl⟩
  | _ => cases carries <;> cases carriesLater <;> exact ⟨rfl, rfl⟩

end Views

/-- The view shows the accepted part in all states but the pre-closed one, and as a
contract moves on the fields change exactly when it is pre-closed. -/
theorem fromContract_shows_iff (collateral : AcceptedContract → UInt64)
    {contract : DlcContract} {accepted : AcceptedContract}
    (carries : contract.acceptedPart? = some accepted)
    (isTxid : IsTxid accepted.dlcTransactions.fund.txid) :
    (Shows collateral accepted (view collateral contract) ↔
      contract.preClosed? = none) ∧
    ∀ (manager : Manager) (steps : List WalletStep) (target : DlcContract)
      (later : AcceptedContract), Follows manager steps contract target →
      target.acceptedPart? = some later →
        (SameFields (view collateral contract) (view collateral target) ↔
          target.preClosed? = none) := by
  refine ⟨shows_view_iff collateral carries isTxid, ?_⟩
  intro manager steps target later follows carriesLater
  obtain ⟨rfl, before⟩ := acceptedPart?_of_follows follows carries carriesLater
  obtain ⟨sourceCollateral, sourceTx⟩ := view_fields collateral carries
  obtain ⟨targetCollateral, targetTx⟩ := view_fields collateral carriesLater
  rw [if_pos before] at sourceTx
  rw [SameFields, sourceCollateral, sourceTx, targetCollateral, targetTx]
  split_ifs with state
  · simp [state]
  · simp [state, (repr_ne_txid isTxid _).symm]

/-- A contract whose fund transaction has an identifier of 64 digits. -/
def sampleFunded : SignedContract :=
  ⟨⟨⟨.replicate 32 1, [], "peer"⟩, [],
    ⟨⟨"00000000000000000000000000000000ffffffffffffffffffffffffffffffff", 0⟩,
      ⟨"refund", 0⟩, "script"⟩, .replicate 32 2⟩, none⟩

theorem fromContract_shows_iff_sampleFunded :
    Shows (fun _ => 1000) sampleFunded.acceptedContract
      (view (fun _ => 1000) (.refunded sampleFunded)) :=
  (@fromContract_shows_iff (fun _ => 1000) (.refunded sampleFunded)
    sampleFunded.acceptedContract rfl (by unfold IsTxid; decide +kernel)).1.mpr rfl

/-- A pre-closed contract shows its collateral as the transaction. -/
theorem not_fromContract_shows :
    ¬ ∀ (collateral : AcceptedContract → UInt64) (contract : DlcContract)
      (accepted : AcceptedContract), contract.acceptedPart? = some accepted →
      IsTxid accepted.dlcTransactions.fund.txid →
        Shows collateral accepted (view collateral contract) := by
  intro always
  have shown := (always (fun _ => 1000) (.preClosed ⟨sampleFunded, none, ⟨"cet", 0⟩⟩)
    sampleFunded.acceptedContract rfl (by unfold IsTxid; decide +kernel)).1
  have different : (view (fun _ => 1000)
      (.preClosed ⟨sampleFunded, none, ⟨"cet", 0⟩⟩)).txId = "1000" := by
    decide +kernel
  rw [different] at shown
  exact absurd shown (by decide +kernel)

end JsDlcInterface

end DlcStack

import DlcStack.ManagerRecords

/-!
# One record does not influence another

A periodic check advances each record by itself, so what becomes of a record does
not depend on the records beside it, nor on how the checks of their contracts end.
This holds as long as every listed record can be read and every contract can be
reported; one record that cannot be read keeps all contracts of its state, and those
of the later phases, from being checked.
-/

namespace DlcStack

namespace LinkManager

open Program hiding ask
open Clients Clients.AsyncStorageApiProvider

/-- In every surroundings, a periodic check makes the same of a record in any two
databases with legible rows. -/
theorem periodicCheck_isolated {formats : ContractFormats} (roundTrip : formats.RoundTrip)
    (publicKey : String) (manager : Manager) (around : Nat → Surroundings)
    {first second : Storage.Database} {key : String × String} {row : Storage.Contract}
    (legible : LegibleRows (formats.provider publicKey) first)
    (legible' : LegibleRows (formats.provider publicKey) second)
    (stored : first.contracts.find? key = some row)
    (stored' : second.contracts.find? key = some row) :
    (eval (serveRows (formats.provider publicKey) around) (periodicCheck manager).run
        (first, 0)).2.2.1.contracts.find? key =
      (eval (serveRows (formats.provider publicKey) around) (periodicCheck manager).run
        (second, 0)).2.2.1.contracts.find? key := by
  have readBack := formats.provider_roundTrip roundTrip publicKey
  rw [find?_periodicCheck readBack manager around legible,
    find?_periodicCheck readBack manager around legible', stored, stored']

/-! ## Records to run on -/

/-- The record that the provider creates of a contract. -/
def recordOf (provider : AsyncStorageApiProvider) (contract : DlcContract) :
    Storage.NewContract :=
  provider.newRequest contract ((provider.encode contract).toOption.getD "")

/-- A database with these records. -/
def databaseOf (records : List Storage.NewContract) : Storage.Database :=
  records.foldl (fun db record =>
    ((Storage.Call.createContract record).respond db).2) .empty

/-- The records that a provider creates are coherent. -/
theorem coherentRows_databaseOf {provider : AsyncStorageApiProvider}
    (roundTrip : provider.RoundTrip) {contracts : List DlcContract}
    (encodes : ∀ contract ∈ contracts, (provider.encode contract).isOk = true) :
    provider.CoherentRows (databaseOf (contracts.map (recordOf provider))) := by
  have loop (db : Storage.Database) (coherent : provider.CoherentRows db) :
      provider.CoherentRows ((contracts.map (recordOf provider)).foldl (fun db record =>
        ((Storage.Call.createContract record).respond db).2) db) := by
    induction contracts generalizing db with
    | nil => exact coherent
    | cons contract rest ih =>
        refine ih (fun other member => encodes other (List.mem_cons_of_mem _ member)) _ ?_
        have encoded := encodes contract (by simp)
        unfold recordOf
        cases written : provider.encode contract with
        | ok content => exact coherent.create roundTrip written
        | error error =>
            rw [written] at encoded
            cases encoded
  exact loop .empty fun row member => nomatch member

def sampleContract (number : UInt8) : SignedContract :=
  sampleSigned (Vector.replicate 32 number) (Vector.replicate 32 (number + 1))

/-- Formats for two signed contracts. -/
def twoFormats : ContractFormats :=
  fewFormats [sampleContract 1, sampleContract 3] [] []

/-- The record of a signed contract, and the key under which it is stored. -/
def sampleRecord (number : UInt8) : Storage.NewContract :=
  recordOf (twoFormats.provider "alice") (.signed (sampleContract number))

def sampleKey (number : UInt8) : String × String :=
  ("alice", getContractIdString (sampleContract number).acceptedContract.contractId)

/-- A record of the same state that cannot be read. -/
def unreadableRecord : Storage.NewContract :=
  ⟨"0x", "signed", "", "alice"⟩

/-- All storage requests succeed, and all transactions have six confirmations. -/
def confirmingAll : Nat → Surroundings :=
  fun _ => ⟨(sampleOthers (fun _ => 6) false 0 fun _ => false).answers, fun _ => .up⟩

/-- The record of the first contract. -/
def sampleRow : Storage.Contract :=
  ⟨1, (sampleRecord 1).uuid, "signed", (sampleRecord 1).content, "alice"⟩

/-- The database after a periodic check on these records. -/
def afterCheck (records : List Storage.NewContract) : Storage.Database :=
  (eval (serveRows (twoFormats.provider "alice") confirmingAll)
    (periodicCheck sampleManager).run (databaseOf records, 0)).2.2.1

theorem periodicCheck_isolated_sample :
    (afterCheck [sampleRecord 1]).contracts.find? (sampleKey 1) =
      (afterCheck [sampleRecord 1, sampleRecord 3]).contracts.find? (sampleKey 1) :=
  periodicCheck_isolated (fewFormats_roundTrip _ _ _) "alice" sampleManager confirmingAll
    (by decide +kernel) (by decide +kernel)
    (by decide +kernel : _ = some sampleRow) (by decide +kernel)

/-- A record that cannot be read keeps a contract from being confirmed. -/
theorem not_periodicCheck_isolated :
    ¬ ∀ (formats : ContractFormats), formats.RoundTrip → ∀ (publicKey : String)
      (manager : Manager) (around : Nat → Surroundings) (first second : Storage.Database)
      (key : String × String) (row : Storage.Contract),
      first.contracts.find? key = some row → second.contracts.find? key = some row →
        (eval (serveRows (formats.provider publicKey) around)
            (periodicCheck manager).run (first, 0)).2.2.1.contracts.find? key =
          (eval (serveRows (formats.provider publicKey) around)
            (periodicCheck manager).run (second, 0)).2.2.1.contracts.find? key := by
  intro claimed
  have same : (afterCheck [sampleRecord 1]).contracts.find? (sampleKey 1) =
      (afterCheck [sampleRecord 1, unreadableRecord]).contracts.find? (sampleKey 1) :=
    claimed twoFormats (fewFormats_roundTrip _ _ _) "alice" sampleManager confirmingAll _ _
      (sampleKey 1) sampleRow (by decide +kernel) (by decide +kernel)
  exact absurd same (by decide +kernel)

end LinkManager

end DlcStack

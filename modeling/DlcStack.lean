import DlcStack.AsyncStorageCoherence
import DlcStack.AsyncStorageContracts
import DlcStack.AsyncStorageHttp
import DlcStack.AttestorClient
import DlcStack.AttestorNonces
import DlcStack.AttestorOutcomes
import DlcStack.Binary64
import DlcStack.EffectAssumptions
import DlcStack.EffectInterleaving
import DlcStack.EffectOnce
import DlcStack.EffectOwnership
import DlcStack.EffectParties
import DlcStack.EffectSimulation
import DlcStack.EsploraConfirmations
import DlcStack.JsContractViews
import DlcStack.JsContracts
import DlcStack.JsInterfaceBroadcasts
import DlcStack.JsInterfaceFailures
import DlcStack.ManagerAttestations
import DlcStack.ManagerFailures
import DlcStack.ManagerFees
import DlcStack.ManagerHttp
import DlcStack.ManagerIdempotence
import DlcStack.ManagerLifecycle
import DlcStack.ManagerOffers
import DlcStack.ManagerRaces
import DlcStack.ManagerRefunds
import DlcStack.ManagerReports
import DlcStack.ManagerSettlement
import DlcStack.ManagerTemporaryIds
import DlcStack.ObserverListing
import DlcStack.ObserverReads
import DlcStack.ObserverService
import DlcStack.ProtocolFunding
import DlcStack.ProtocolParties
import DlcStack.ProtocolWrites
import DlcStack.StacksNonceService
import DlcStack.StorageAcceptance
import DlcStack.StorageHttp
import DlcStack.StorageNonceReuse
import DlcStack.StorageNonces
import DlcStack.StorageOwnership
import DlcStack.StorageRejection
import DlcStack.StorageSignedRequests
import DlcStack.WalletFailures
import DlcStack.WalletFunding
import DlcStack.WalletNotifications
import DlcStack.WalletOffers
import DlcStack.WalletPayoutCurve
import DlcStack.WalletStorage

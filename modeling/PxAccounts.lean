import PxAccounts.Lib.TreeMap
import PxAccounts.Lib.Run
import PxAccounts.Lib.Holding
import PxAccounts.Lib.Pieces
import PxAccounts.Lib.Directory
import PxAccounts.Lib.Layers
import PxAccounts.Lib.Couple
import PxAccounts.Lib.Effect
import PxAccounts.Model.RPCHandler
import PxAccounts.Model.ProviderHandler
import PxAccounts.Model.RPCServer
import PxAccounts.Model.Paths
import PxAccounts.Model.PluginManager
import PxAccounts.Model.CustomPlugin
import PxAccounts.Proof.AccountFile
import PxAccounts.Proof.ServiceFrame
import PxAccounts.Proof.ServiceRun
import PxAccounts.Proof.ObjectRun
import PxAccounts.Proof.WorldSteps
import PxAccounts.Proof.ManagerRun
import PxAccounts.Proof.RoundTrip
import PxAccounts.Proof.Storage
import PxAccounts.Proof.SecretStore
import PxAccounts.Proof.Routing
import PxAccounts.Proof.Isolation
import PxAccounts.Proof.Exceptions
import PxAccounts.Proof.Stored
import PxAccounts.Proof.Replay
import PxAccounts.Proof.Links
import PxAccounts.Proof.Orphans
import PxAccounts.Proof.Refinement
import PxAccounts.Proof.Modification
import PxAccounts.Proof.Messages
import PxAccounts.Proof.Endings
import PxAccounts.Proof.Demands
import PxAccounts.Proof.Changes
import PxAccounts.Proof.Placement
import PxAccounts.Proof.Listing
import PxAccounts.Proof.Deletion
import PxAccounts.Proof.Removal
import PxAccounts.Proof.DualPassword
import PxAccounts.Proof.Containment
import PxAccounts.Proof.TwoRuns
import PxAccounts.Proof.Delivery
import PxAccounts.Proof.RecordIds
import PxAccounts.Proof.Records
import PxAccounts.Proof.Limits
import PxAccounts.Proof.Tokens
import PxAccounts.Proof.SecretSearch
import PxAccounts.Proof.Reload
import PxAccounts.Proof.Acceptance
import PxAccounts.Proof.Views
import PxAccounts.Proof.Providers
import PxAccounts.Proof.Defaults
import PxAccounts.Proof.Warnings
import PxAccounts.Proof.DefaultAccount
import PxAccounts.Proof.AutoCreation
import PxAccounts.Proof.ServicesParam
import PxAccounts.Proof.ServerLife
import PxAccounts.Proof.PathLists
import PxAccounts.Proof.PathEnds
import PxAccounts.Proof.PathMaking
import PxAccounts.Proof.Lookups
import PxAccounts.Proof.Masking
import PxAccounts.Proof.Logs
import PxAccounts.Proof.PublicView
import PxAccounts.Proof.PublicService
import PxAccounts.Proof.PublicAccounts
import PxAccounts.Proof.Disclosure
import PxAccounts.Proof.PluginLoading
import PxAccounts.Proof.PluginRegistry
import PxAccounts.Proof.CustomStorage
import PxAccounts.Proof.Shelf
import PxAccounts.Proof.Keeping
import PxAccounts.Proof.ClientBook
import PxAccounts.Proof.ClientSession
import PxAccounts.Proof.CustomContract
import PxAccounts.Proof.ClientView

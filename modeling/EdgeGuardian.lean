import EdgeGuardian.Lib.Transition
import EdgeGuardian.Lib.OrderedMap
import EdgeGuardian.Lib.Pool
import EdgeGuardian.Lib.Table
import EdgeGuardian.Lib.Transaction
import EdgeGuardian.Lib.RevocationLedger
import EdgeGuardian.Lib.Approval
import EdgeGuardian.Lib.RenewalChain
import EdgeGuardian.Lib.ReadCommitted
import EdgeGuardian.Lib.FileStore
import EdgeGuardian.Lib.SharedRow
import EdgeGuardian.Lib.SharedFile
import EdgeGuardian.Lib.FirstDelivery
import EdgeGuardian.Lib.LastWriter
import EdgeGuardian.Lib.OneTimeTicket
import EdgeGuardian.Lib.KeyedPass
import EdgeGuardian.Lib.WeakIteration
import EdgeGuardian.Lib.SlidingWindow
import EdgeGuardian.Lib.Newest
import EdgeGuardian.Lib.Pieces
import EdgeGuardian.Lib.LineScanner
import EdgeGuardian.Lib.FreshName
import EdgeGuardian.Lib.Delegation
import EdgeGuardian.Lib.TopicFilter
import EdgeGuardian.Lib.Utf8Search
import EdgeGuardian.Lib.LogStore
import EdgeGuardian.Pki
import EdgeGuardian.Json
import EdgeGuardian.Lib.GoJson
import EdgeGuardian.Agent.Model.DeviceManifest
import EdgeGuardian.Agent.Storage.OfflineQueue
import EdgeGuardian.Agent.Storage.FifoQueue
import EdgeGuardian.Agent.Comms.OfflineDelivery
import EdgeGuardian.Agent.Comms.DrainOrder
import EdgeGuardian.Agent.Ota.SelfUpdate
import EdgeGuardian.Agent.Ota.ConcurrentApply
import EdgeGuardian.Agent.Watchdog
import EdgeGuardian.Agent.Watchdog.FailedRenames
import EdgeGuardian.Agent.Watchdog.CrashWindow
import EdgeGuardian.Agent.Commands.Dispatcher
import EdgeGuardian.Agent.Comms.Subscriptions
import EdgeGuardian.Agent.Bootstrap.Identity
import EdgeGuardian.Agent.Bootstrap.IdentityStore
import EdgeGuardian.Agent.Bootstrap.FailedRenewal
import EdgeGuardian.Agent.Bootstrap.Renewer
import EdgeGuardian.Agent.Bootstrap.RenewalPairing
import EdgeGuardian.Agent.Bootstrap.Process
import EdgeGuardian.Agent.Bootstrap.Enrollment
import EdgeGuardian.Agent.Plugins.CertificateManager
import EdgeGuardian.Agent.Reconciler
import EdgeGuardian.Agent.Plugins.FileManager
import EdgeGuardian.Agent.Plugins.ServiceManager
import EdgeGuardian.Agent.Plugins.CertificateReconcile
import EdgeGuardian.Agent.Reconciler.Plugins
import EdgeGuardian.Agent.Reconciler.Dispatch
import EdgeGuardian.Agent.Shell.Manager
import EdgeGuardian.Agent.Shell.OpenDelivery
import EdgeGuardian.Agent.Shell.Session
import EdgeGuardian.Agent.Shell.SessionEvents
import EdgeGuardian.Agent.Logfwd.Forwarder
import EdgeGuardian.Agent.Logfwd.FileTailer
import EdgeGuardian.Controller.Model
import EdgeGuardian.Controller.Certificates
import EdgeGuardian.Controller.Devices
import EdgeGuardian.Controller.DeviceLiveness
import EdgeGuardian.Controller.Organizations
import EdgeGuardian.Controller.OrganizationCaStore
import EdgeGuardian.Controller.TenantIndistinguishability
import EdgeGuardian.Controller.MqttSubscriptions
import EdgeGuardian.Controller.Listeners
import EdgeGuardian.Controller.Operations
import EdgeGuardian.Controller.CrlCompleteness
import EdgeGuardian.Controller.CrlFreshness
import EdgeGuardian.Controller.ConcurrentRevocation
import EdgeGuardian.Controller.ActiveCertificates
import EdgeGuardian.Controller.RevocationMemory
import EdgeGuardian.Controller.RequestLifecycle
import EdgeGuardian.Controller.RenewalChains
import EdgeGuardian.Controller.RenewalEligibility
import EdgeGuardian.Controller.EnrollmentConfinement
import EdgeGuardian.Controller.RejectedEnrollment
import EdgeGuardian.Controller.SubjectBinding
import EdgeGuardian.Controller.Shell
import EdgeGuardian.Controller.ShellTickets
import EdgeGuardian.Controller.ShellConcurrency
import EdgeGuardian.Controller.ShellConcurrency.Accounting
import EdgeGuardian.Controller.ShellConcurrency.Activation
import EdgeGuardian.Controller.ShellConcurrency.Limits
import EdgeGuardian.Controller.DeviceConfinement
import EdgeGuardian.Controller.DeviceDeletion
import EdgeGuardian.Controller.Commands
import EdgeGuardian.Controller.Reads
import EdgeGuardian.Controller.ReadIsolation
import EdgeGuardian.Controller.LatestStatus
import EdgeGuardian.Controller.Manifests
import EdgeGuardian.Controller.ManifestVersions
import EdgeGuardian.Controller.ManifestYaml
import EdgeGuardian.Controller.ManifestText
import EdgeGuardian.Controller.Invitations
import EdgeGuardian.Controller.UniqueSlug
import EdgeGuardian.Controller.Users
import EdgeGuardian.Controller.Ownership
import EdgeGuardian.Controller.VerifiedEmail
import EdgeGuardian.Controller.StrandedInvitations
import EdgeGuardian.Controller.Credentials
import EdgeGuardian.Controller.HttpSecurity
import EdgeGuardian.Controller.Authority
import EdgeGuardian.Controller.AgentInstaller
import EdgeGuardian.Controller.LogQueries
import EdgeGuardian.Controller.InstallerScripts
import EdgeGuardian.Controller.CmdPayload
import EdgeGuardian.CommandCorrelation
import EdgeGuardian.IdentityReconnect
import EdgeGuardian.CertificatePairing
import EdgeGuardian.ManifestAgreement
import EdgeGuardian.ManifestContract
import EdgeGuardian.ReleaseAgreement
import EdgeGuardian.TopicAgreement
import EdgeGuardian.SanAgreement
import EdgeGuardian.BrokerAcl
import EdgeGuardian.Agent.Ota.UpdateRuns
import EdgeGuardian.Agent.Plugins.Systemd
import EdgeGuardian.TrustBundle
import EdgeGuardian.Ui.ApiCalls
import EdgeGuardian.Ui.OrganizationSwitch
import EdgeGuardian.Controller.LogIngestion
import EdgeGuardian.Ui.DeviceLogs
import EdgeGuardian.Ui.ManifestEditor
import EdgeGuardian.TerminalInput

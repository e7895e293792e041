import NagisaLake.RunProofs
import NagisaLake.TableProofs
import NagisaLake.TransactionProofs
import NagisaLake.PoolProofs
import NagisaLake.JsonProofs
import NagisaLake.JobStateProofs
import NagisaLake.SessionsProofs
import NagisaLake.JournalProofs
import NagisaLake.RunnerProofs
import NagisaLake.DeliveryProofs
import NagisaLake.StoreProofs
import NagisaLake.QuotaProofs
import NagisaLake.BacklogProofs
import NagisaLake.ArtifactsProofs
import NagisaLake.UploadProofs
import NagisaLake.StorageProofs
import NagisaLake.HubEventsProofs
import NagisaLake.HubRowsProofs
import NagisaLake.AgreementProofs
import NagisaLake.ProtocolProofs
import NagisaLake.AdmissionProofs
import NagisaLake.DispatchProofs
import NagisaLake.HistoryProofs
import NagisaLake.ReconcileProofs
import NagisaLake.InputsProofs
import NagisaLake.BatchCancelProofs
import NagisaLake.SharingProofs
import NagisaLake.WorkerUploadProofs
import NagisaLake.DurabilityProofs
import NagisaLake.CacheProofs
import NagisaLake.ResidentProofs
import NagisaLake.LockingProofs
import NagisaLake.QuotaRepairProofs
import NagisaLake.BackendsProofs
import NagisaLake.LoginProofs
import NagisaLake.RetriesProofs
import NagisaLake.RefusalsProofs
import NagisaLake.ChannelProofs
import NagisaLake.RegistrationProofs
import NagisaLake.CapacityProofs
import NagisaLake.RejectionProofs
import NagisaLake.ProcessProofs
import NagisaLake.IdentityProofs
import NagisaLake.PromptsProofs
import NagisaLake.FramingProofs
import NagisaLake.WireProofs
import NagisaLake.SupervisorProofs
import NagisaLake.AnswersProofs
import NagisaLake.ClientProofs
import NagisaLake.CoursesProofs
import NagisaLake.DispatcherProofs
import NagisaLake.InvitesProofs
import NagisaLake.RedemptionProofs
import NagisaLake.PlacesProofs
import NagisaLake.InputOrderProofs
import NagisaLake.MembersProofs
import NagisaLake.CoverProofs
import NagisaLake.OwnersProofs
import NagisaLake.RecencyProofs
import NagisaLake.TtlCacheProofs
import NagisaLake.RateLimitProofs
import NagisaLake.JsonLinesProofs
import NagisaLake.ListingProofs
import NagisaLake.RefreshProofs
import NagisaLake.GateProofs
import NagisaLake.ExitsProofs
import NagisaLake.AgentRunProofs
import NagisaLake.StoreRunsProofs

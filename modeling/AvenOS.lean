import AvenOS.Actors.PlanExecutorAgreement
import AvenOS.ActorRunner.Continuations
import AvenOS.ArtifactStore.ParserAgreement
import AvenOS.Voice.InputLifecycle
import AvenOS.Voice.StaleObservations
import AvenOS.Voice.SpeechStream
import AvenOS.Voice.StoppedSession
import AvenOS.Voice.RouteCoherence
import AvenOS.Voice.EchoSafety
import AvenOS.VoiceRuntime.DrainedOutput
import AvenOS.Actors.ObservedReplay
import AvenOS.Actors.ObservedConfluence
import AvenOS.Provisioner.LiveCopy
import AvenOS.Provisioner.Leases
import AvenOS.Checkout.DeliveryAttempts
import AvenOS.Checkout.EmailLeases
import AvenOS.Checkout.SubscriptionOrder
import AvenOS.Checkout.SubscriptionLimit
import AvenOS.Checkout.NameRefunds
import AvenOS.ArtifactStore.ArtifactIdentity
import AvenOS.ArtifactStore.BlobProvenance
import AvenOS.ArtifactStore.PublicationLog
import AvenOS.IntentService.RetriedCommands
import AvenOS.HttpResources.BodyReuse
import AvenOS.Todo.BoardKept
import AvenOS.Identity.SingleOpening
import AvenOS.Identity.SingleRedemption
import AvenOS.Actors.MostGeneral
import AvenOS.Actors.Stages
import AvenOS.Actors.Mailbox
import AvenOS.Actors.EnrichmentTermination
import AvenOS.Actors.LocalVariables
import AvenOS.Actors.StepBound
import AvenOS.StaticSites.RequestPaths
import AvenOS.CustomerRuntime.PoolOwnership
import AvenOS.ArtifactStore.ByteRange
import AvenOS.HttpResources.SpecificBinding
import AvenOS.DocumentIngest.Pointers
import AvenOS.Chat.ExtractedObject
import AvenOS.DocumentIngest.JoinedText
import AvenOS.ActorRunner.CanonicalMaterial
import AvenOS.ArtifactStore.TypeRegistration
import AvenOS.DocumentIngest.Iban
import AvenOS.Voice.NarrationEcho

import Avtp.View.Setter
import Avtp.View.Describe
import Avtp.CommonHeader
import Avtp.Pdu
import Avtp.StatusCode
import Avtp.Main
import Avtp.Proofs.FieldBits
import Avtp.Proofs.FieldStore
import Avtp.Proofs.StrictView
import Avtp.Proofs.ViewSafety
import Avtp.Proofs.SelfDelimiting
import Avtp.Proofs.HeaderFill
import Avtp.Proofs.Framing
import Avtp.Proofs.MessageWire
import Avtp.Proofs.PayloadWalk
import Avtp.Proofs.StreamWire
import Avtp.Proofs.DecodeEncode
import Avtp.Proofs.DroppedFields
import Avtp.Proofs.EncodeDecode
import Avtp.Proofs.WritePlan
import Avtp.Proofs.WalkPartition
import Avtp.Proofs.CaptureTiling
import Avtp.Proofs.MistypedBodies
import Avtp.Proofs.PlainListing
import Avtp.Proofs.NetworkOrder
import Avtp.Proofs.WireComposition
import Avtp.Proofs.EncapsulatedDump
import Avtp.Proofs.LabelColors
import Avtp.Proofs.CutPayload
import Avtp.Proofs.TypedAccess
import Avtp.Proofs.FirstFault
import Avtp.Proofs.SetterIndependence
import Avtp.Proofs.FieldPositions
import Avtp.Proofs.FieldPlacement
import Avtp.Proofs.AnnotationAssembly
import Avtp.Proofs.DumpVerdict
import Avtp.Proofs.FaithfulText
import Avtp.Proofs.WordListing
import Avtp.Proofs.SpelledOctets
import Avtp.Proofs.StatusRefinement
import Avtp.Proofs.Reparsing
import Avtp.Proofs.FlagBits
import Avtp.Proofs.MessageListing

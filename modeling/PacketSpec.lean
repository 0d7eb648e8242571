import PacketSpec.Main
import PacketSpec.Proofs.BitSlicing
import PacketSpec.Proofs.CanonicalText
import PacketSpec.Proofs.CodeCells
import PacketSpec.Proofs.EnumConversion
import PacketSpec.Proofs.Generation
import PacketSpec.Proofs.MarkerCells
import PacketSpec.Proofs.Nesting
import PacketSpec.Proofs.Outputs
import PacketSpec.Proofs.Packing
import PacketSpec.Proofs.ParityCover
import PacketSpec.Proofs.ParityProduct
import PacketSpec.Proofs.ParityRefusal
import PacketSpec.Proofs.PayloadLength
import PacketSpec.Proofs.Promotion
import PacketSpec.Proofs.Recursion
import PacketSpec.Proofs.Refusal
import PacketSpec.Proofs.SizeBounds
import PacketSpec.Proofs.StoredFields
import PacketSpec.Proofs.Truncation
import PacketSpec.Proofs.WindowWidth
import PacketSpec.Proofs.WireFormat

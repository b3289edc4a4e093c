import TonEncoder.Reference.Bags
import TonEncoder.Verdicts
import TonEncoder.FileProgram
import TonEncoder.Codec.BigEndian
import TonEncoder.Codec.Crc
import TonEncoder.Writers.Boc
import TonEncoder.Writers.Refinement
import TonEncoder.Interop
import TonEncoder.Buffer.Chain
import TonEncoder.Buffer.Readers
import TonEncoder.Buffer.Operations
import TonEncoder.Buffer.Queue
import TonEncoder.Cells.AtomicRef
import TonEncoder.Cells.ExtCell
import TonEncoder.Cells.Virtualization

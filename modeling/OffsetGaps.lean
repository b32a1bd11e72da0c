import OffsetGaps.Host.Scripted
import OffsetGaps.Main
import OffsetGaps.Proofs.Isolation
import OffsetGaps.Proofs.Accounting
import OffsetGaps.Proofs.Exchanges
import OffsetGaps.Proofs.Streaming
import OffsetGaps.Proofs.Lines
import OffsetGaps.Proofs.Serving
import OffsetGaps.Proofs.Rows
import OffsetGaps.Proofs.Bytes
import OffsetGaps.Proofs.Registration
import OffsetGaps.Proofs.Transparency
import OffsetGaps.Proofs.CommandLine
import OffsetGaps.Proofs.Numerals
import OffsetGaps.Proofs.Binding
import OffsetGaps.Proofs.Composition
import OffsetGaps.Proofs.Spellings
import OffsetGaps.Proofs.Commands
import OffsetGaps.Proofs.Extents
import OffsetGaps.Proofs.Insertion
import OffsetGaps.Proofs.Lifecycle
import OffsetGaps.Proofs.Strictness
import OffsetGaps.Proofs.Literals
import OffsetGaps.Proofs.Decorations
import OffsetGaps.Proofs.NaturalOrder
import OffsetGaps.Proofs.Refusals
import OffsetGaps.Proofs.Rendering
import OffsetGaps.Proofs.Observations

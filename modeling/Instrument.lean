import Instrument.Main
import Instrument.Proofs.Actions
import Instrument.Proofs.Admission
import Instrument.Proofs.Anchoring
import Instrument.Proofs.Atomicity
import Instrument.Proofs.Blocks
import Instrument.Proofs.Consistency
import Instrument.Proofs.Containment
import Instrument.Proofs.Deferral
import Instrument.Proofs.Encoding
import Instrument.Proofs.Entries
import Instrument.Proofs.Guarding
import Instrument.Proofs.Holdings
import Instrument.Proofs.Independence
import Instrument.Proofs.Integrity
import Instrument.Proofs.Isolation
import Instrument.Proofs.IssueLines
import Instrument.Proofs.Kinds
import Instrument.Proofs.Layers
import Instrument.Proofs.Layout
import Instrument.Proofs.LeadingNumbers
import Instrument.Proofs.Nesting
import Instrument.Proofs.Ranges
import Instrument.Proofs.Recognition
import Instrument.Proofs.Refusal
import Instrument.Proofs.Removal
import Instrument.Proofs.Rewording
import Instrument.Proofs.Scanning
import Instrument.Proofs.ScopeKeys
import Instrument.Proofs.Scoping
import Instrument.Proofs.Sharing
import Instrument.Proofs.Snapshots
import Instrument.Proofs.Strictness
import Instrument.Proofs.Viability
import Instrument.Proofs.WholeTexts

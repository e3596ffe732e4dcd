import SerialBridge.Event.Hub
import SerialBridge.Main
import SerialBridge.Proofs.Chunking
import SerialBridge.Proofs.Framing
import SerialBridge.Proofs.Planning
import SerialBridge.Proofs.LinkSteps
import SerialBridge.Proofs.LinkRuns
import SerialBridge.Proofs.Wire
import SerialBridge.Proofs.Callers
import SerialBridge.Proofs.Actions
import SerialBridge.Proofs.Books
import SerialBridge.Proofs.Accounts
import SerialBridge.Proofs.Delivery
import SerialBridge.Proofs.Assembly
import SerialBridge.Proofs.Looks
import SerialBridge.Proofs.Reports
import SerialBridge.Proofs.Echoes
import SerialBridge.Proofs.Sessions
import SerialBridge.Proofs.Tally
import SerialBridge.Proofs.Fanout
import SerialBridge.Proofs.Audience
import SerialBridge.Proofs.Totals
import SerialBridge.Proofs.Stranding
import SerialBridge.Proofs.Characters
import SerialBridge.Proofs.Tags
import SerialBridge.Proofs.Cuts
import SerialBridge.Proofs.Stopping
import SerialBridge.Proofs.Deafness
import SerialBridge.Proofs.Noninterference
import SerialBridge.Proofs.Remarks
import SerialBridge.Proofs.Dialogues
import SerialBridge.Proofs.Escaping
import SerialBridge.Proofs.Packing
import SerialBridge.Proofs.Literals
import SerialBridge.Proofs.Spelling
import SerialBridge.Proofs.Decoding
import SerialBridge.Proofs.Alternatives
import SerialBridge.Proofs.Documents
import SerialBridge.Proofs.Pieces
import SerialBridge.Proofs.Storage
import SerialBridge.Proofs.Buffering
import SerialBridge.Proofs.Meanings
import SerialBridge.Proofs.Delimiting
import SerialBridge.Proofs.FailedWrites
import SerialBridge.Proofs.Readings
import SerialBridge.Proofs.Openings
import SerialBridge.Proofs.LastPort
import SerialBridge.Proofs.Standing
import SerialBridge.Proofs.Acknowledgments
import SerialBridge.Proofs.Typing
import SerialBridge.Proofs.Sizes
import SerialBridge.Proofs.Discovery
import SerialBridge.Proofs.Pacing

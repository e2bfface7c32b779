import Fanout.Session
import Fanout.Proofs.NestedLoop
import Fanout.Proofs.Offsets
import Fanout.Proofs.Reading
import Fanout.Proofs.Building
import Fanout.Proofs.Fidelity
import Fanout.Proofs.Repeating
import Fanout.Proofs.DryRun
import Fanout.Proofs.Contents
import Fanout.Proofs.Endings
import Fanout.Proofs.Absorbing
import Fanout.Proofs.ShellQuotes
import Fanout.Proofs.Escapes
import Fanout.Proofs.Locality
import Fanout.Proofs.Reachable
import Fanout.Proofs.Writing
import Fanout.Proofs.Moving
import Fanout.Proofs.Inside
import Fanout.Proofs.Directories
import Fanout.Proofs.Counting
import Fanout.Proofs.Stranded
import Fanout.Proofs.Trimming
import Fanout.Proofs.Capturing
import Fanout.Proofs.Tally
import Fanout.Proofs.Kinds
import Fanout.Proofs.Literally
import Fanout.Proofs.LineFiles
import Fanout.Proofs.Pointing
import Fanout.Proofs.Splitting
import Fanout.Proofs.Unquoting
import Fanout.Proofs.Flags
import Fanout.Proofs.Hiding
import Fanout.Proofs.Machines
import Fanout.Proofs.Scripts

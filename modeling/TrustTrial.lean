import TrustTrial.Main
import TrustTrial.Replay
import TrustTrial.Proofs.Script
import TrustTrial.Proofs.Runs
import TrustTrial.Proofs.Trace
import TrustTrial.Proofs.Rotations
import TrustTrial.Proofs.Entries
import TrustTrial.Proofs.CleanUp
import TrustTrial.Proofs.JsonTokens
import TrustTrial.Proofs.Filing
import TrustTrial.Proofs.Tables
import TrustTrial.Proofs.Folders
import TrustTrial.Proofs.Homes
import TrustTrial.Proofs.Visits
import TrustTrial.Proofs.Commands
import TrustTrial.Proofs.Fixtures
import TrustTrial.Proofs.Records
import TrustTrial.Proofs.Scenes
import TrustTrial.Proofs.Acts
import TrustTrial.Proofs.Courses
import TrustTrial.Proofs.Agreement
import TrustTrial.Proofs.Contents
import TrustTrial.Proofs.Rereading
import TrustTrial.Proofs.Errands
import TrustTrial.Proofs.Refusals
import TrustTrial.Proofs.Chronicles
import TrustTrial.Proofs.Copies
import TrustTrial.Proofs.Comparing
import TrustTrial.Proofs.Keyholding
import TrustTrial.Proofs.Recognition
import TrustTrial.Proofs.Publishing
import TrustTrial.Proofs.Following
import TrustTrial.Proofs.Ways
import TrustTrial.Proofs.Reuse
import TrustTrial.Proofs.Beside
import TrustTrial.Proofs.Plots
import TrustTrial.Proofs.Keeping
import TrustTrial.Proofs.Twins
import TrustTrial.Proofs.Neighbours
import TrustTrial.Proofs.Hearing
import TrustTrial.Proofs.Requirements
import TrustTrial.Proofs.Admission
import TrustTrial.Proofs.Secrecy
import TrustTrial.Proofs.Patience
import TrustTrial.Proofs.Outset
import TrustTrial.Proofs.Enclosure
import TrustTrial.Proofs.Summaries
import TrustTrial.Proofs.Setbacks
import TrustTrial.Proofs.Readback
import TrustTrial.Proofs.Verdicts
import TrustTrial.Proofs.Blame
import TrustTrial.Proofs.Building
import TrustTrial.Proofs.Catalogue
import TrustTrial.Proofs.Storing
import TrustTrial.Proofs.Digests
import TrustTrial.Proofs.Releases
import TrustTrial.Proofs.Addresses
import TrustTrial.Proofs.Rows

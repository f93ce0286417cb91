import StackMachine.Config.Writer
import StackMachine.Main
import StackMachine.Proofs.Acceptance
import StackMachine.Proofs.Brackets
import StackMachine.Proofs.CommandRoundTrip
import StackMachine.Proofs.ConfigLanguage
import StackMachine.Proofs.Diagnostics
import StackMachine.Proofs.Display
import StackMachine.Proofs.Erasure
import StackMachine.Proofs.Exit
import StackMachine.Proofs.Frame
import StackMachine.Proofs.History
import StackMachine.Proofs.Interleaving
import StackMachine.Proofs.Journal
import StackMachine.Proofs.Layering
import StackMachine.Proofs.Listing
import StackMachine.Proofs.Logging
import StackMachine.Proofs.Policy
import StackMachine.Proofs.Process
import StackMachine.Proofs.Reads
import StackMachine.Proofs.Registrations
import StackMachine.Proofs.Serialization
import StackMachine.Proofs.Status
import StackMachine.Proofs.Termination
import StackMachine.Session.Basic

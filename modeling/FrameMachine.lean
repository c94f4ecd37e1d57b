import FrameMachine.Main
import FrameMachine.Script
import FrameMachine.Proofs.Isolation
import FrameMachine.Proofs.Consistency
import FrameMachine.Proofs.Interchange
import FrameMachine.Proofs.Independence
import FrameMachine.Proofs.Budgets
import FrameMachine.Proofs.Stacking
import FrameMachine.Proofs.Transparency
import FrameMachine.Proofs.Resemblance
import FrameMachine.Proofs.Resources
import FrameMachine.Proofs.Refusals
import FrameMachine.Proofs.Entries
import FrameMachine.Proofs.Conduct
import FrameMachine.Proofs.Exits
import FrameMachine.Proofs.Accounts
import FrameMachine.Proofs.Cuts
import FrameMachine.Proofs.Passages
import FrameMachine.Proofs.Effects
import FrameMachine.Proofs.CommandLines
import FrameMachine.Proofs.Listings
import FrameMachine.Proofs.Addresses
import FrameMachine.Proofs.Confinement
import FrameMachine.Proofs.Allocations
import FrameMachine.Proofs.Slots
import FrameMachine.Proofs.ByteMaps
import FrameMachine.Proofs.BoundedStacks
import FrameMachine.Proofs.OpcodeBytes
import FrameMachine.Proofs.HexDigits
import FrameMachine.Proofs.OptionGroups
import FrameMachine.Proofs.Journals

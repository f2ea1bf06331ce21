import Chip8.Listing
import Chip8.Main
import Chip8.Proofs.CommandLine.LifeCycle
import Chip8.Proofs.Frontend.Enlargement
import Chip8.Proofs.Frontend.Events
import Chip8.Proofs.Frontend.Keyboard
import Chip8.Proofs.Frontend.Player
import Chip8.Proofs.Frontend.Switching
import Chip8.Proofs.Frontend.Tone
import Chip8.Proofs.Instruction.Form
import Chip8.Proofs.Instruction.Order
import Chip8.Proofs.Instruction.Template
import Chip8.Proofs.Latest
import Chip8.Proofs.Listing
import Chip8.Proofs.Listing.Bytes
import Chip8.Proofs.Listing.Text
import Chip8.Proofs.Machine.Access
import Chip8.Proofs.Machine.Arithmetic
import Chip8.Proofs.Machine.Block
import Chip8.Proofs.Machine.Calls
import Chip8.Proofs.Machine.Completion
import Chip8.Proofs.Machine.Cycle
import Chip8.Proofs.Machine.Decay
import Chip8.Proofs.Machine.Dispatch
import Chip8.Proofs.Machine.Effect
import Chip8.Proofs.Machine.Entries
import Chip8.Proofs.Machine.Fault
import Chip8.Proofs.Machine.Footprint
import Chip8.Proofs.Machine.History
import Chip8.Proofs.Machine.Interference
import Chip8.Proofs.Machine.KeyWait
import Chip8.Proofs.Machine.Keys
import Chip8.Proofs.Machine.Logged
import Chip8.Proofs.Machine.Picture
import Chip8.Proofs.Machine.Remains
import Chip8.Proofs.Machine.Sprite
import Chip8.Proofs.Machine.Store
import Chip8.Proofs.Machine.Surroundings
import Chip8.Proofs.Machine.Transfer
import Chip8.Proofs.Machine.Trap
import Chip8.Proofs.Machine.Views
import Chip8.Proofs.Machine.WellFormed
import Chip8.Proofs.Pacing.Accounts
import Chip8.Proofs.Pacing.Batch
import Chip8.Proofs.Pacing.Frames
import Chip8.Proofs.Pacing.Schedule
import Chip8.Proofs.Text.Radix

import E1Machine.Proofs.Accounts
import E1Machine.Proofs.BusWidth
import E1Machine.Proofs.CompareMatch
import E1Machine.Proofs.Confinement
import E1Machine.Proofs.Deadlines
import E1Machine.Proofs.EntryFrames
import E1Machine.Proofs.Handlers
import E1Machine.Proofs.Latch
import E1Machine.Proofs.Lockout
import E1Machine.Proofs.Mirrors
import E1Machine.Proofs.RegisterStack
import E1Machine.Proofs.Returning
import E1Machine.Proofs.Scales
import E1Machine.Proofs.Schedules
import E1Machine.Proofs.Slicing
import E1Machine.Proofs.Tally
import E1Machine.Proofs.TickCount
import E1Machine.Proofs.TimerWrites
import E1Machine.Proofs.HighFlag
import E1Machine.Proofs.Alignment
import E1Machine.Proofs.Requests
import E1Machine.Proofs.Checked.Numbers
import E1Machine.Proofs.Checked.Processor
import E1Machine.Proofs.Checked.Effects
import E1Machine.Proofs.Checked.Decoding
import E1Machine.Proofs.Checked.Memory
import E1Machine.Proofs.Checked.Running
import E1Machine.Proofs.Checked.Safety
import E1Machine.Proofs.ElapsedTime
import E1Machine.Proofs.ReservedBit
import E1Machine.Proofs.UserFrames
import E1Machine.Proofs.DelaySlots
import E1Machine.Proofs.Emulation
import E1Machine.Proofs.Priorities
import E1Machine.Proofs.BankRoom
import E1Machine.Proofs.Lengths
import E1Machine.Proofs.FrameAddress
import E1Machine.Proofs.Ports
import E1Machine.Proofs.Division
import E1Machine.Proofs.MultiWord
import E1Machine.Proofs.Storing
import E1Machine.Proofs.OperandRanges
import E1Machine.Proofs.Costs
import E1Machine.Proofs.DeferredReload
import E1Machine.Proofs.Resetting
import E1Machine.Proofs.Shifting
import E1Machine.Proofs.Comparing
import E1Machine.Proofs.WellFormed
import E1Machine.Proofs.Chips

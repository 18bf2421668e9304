import E1Machine.Effect.Branch
import E1Machine.Effect.Frame
import E1Machine.Effect.Shift
import E1Machine.Effect.Transfer

/-!
# Effects

The effect of each instruction on the machine. Only loads, stores, `FRAME` and `RET` use the bus.
-/

namespace E1Machine

namespace Machine

variable {β : Type} [Bus β]

/-- Executes an instruction. -/
def execute : Instruction → Exec β Unit
  | .check dst src => modifyCpu (·.check dst src)
  | .moveDouble dst src => modifyCpu (·.moveDouble dst src)
  | .ret src => ret src
  | .divide dst src signed => modifyCpu (·.divide dst src signed)
  | .indexMove dst src scale limit => modifyCpu (·.indexMove dst src scale limit)
  | .mask dst src mask => modifyCpu (·.mask dst src mask)
  | .sum dst src addend signed => modifyCpu (·.sum dst src addend signed)
  | .add dst src signed => modifyCpu (·.add dst src signed)
  | .sub dst src signed => modifyCpu (·.sub dst src signed)
  | .neg dst src signed => modifyCpu (·.neg dst src signed)
  | .addCarry dst src => modifyCpu (·.addCarry dst src)
  | .subCarry dst src => modifyCpu (·.subCarry dst src)
  | .round dst signed => modifyCpu (·.round dst signed)
  | .compare dst src => modifyCpu (·.compare dst src)
  | .testBits dst src => modifyCpu (·.testBits dst src)
  | .testZeroByte dst => modifyCpu (·.testZeroByte dst)
  | .logical op dst src => modifyCpu (·.logical op dst src)
  | .complement dst src => modifyCpu (·.complement dst src)
  | .move dst src => modifyCpu (·.move dst src)
  | .moveImmediate dst value => modifyCpu (·.moveImmediate dst value)
  | .privileged => modifyCpu (·.refuseMove)
  | .shift kind dst count => modifyCpu (·.shift kind dst count)
  | .shiftDouble kind dst count => modifyCpu (·.shiftDouble kind dst count)
  | .leadingZeros dst src => modifyCpu (·.leadingZeros dst src)
  | .rotate dst src => modifyCpu (·.rotate dst src)
  | .load form addressing data => load form addressing data
  | .store form addressing data => store form addressing data
  | .reservedTransfer address step report => modifyCpu (·.reservedTransfer address step report)
  | .multiply kind dst src => modifyCpu (·.multiply kind dst src)
  | .set dst value => modifyCpu (·.set dst value)
  | .emulate byte dst src => modifyCpu (·.enterEmulation byte dst src)
  | .accumulate f dst src => modifyCpu (·.accumulate f dst src)
  | .delayedBranch offset => modifyCpu (·.delayedBranch offset)
  | .branch offset => modifyCpu (·.branch offset)
  | .fallThrough => modifyCpu (·.charge .branchNotTaken)
  | .frame back length => frame back length
  | .call code src addend => modifyCpu (·.call code src addend)
  | .trap number condition => modifyCpu (·.trap number condition)
  | .undefined report cost => modifyCpu fun c => (c.report report).charge cost
  | .reserved report => modifyCpu fun c => (c.report report).charge .alu

end Machine

end E1Machine

import DacRack.Call
import DacRack.Link.Emulated
import DacRack.Link.Scripted
import DacRack.Proofs.Requests
import DacRack.Proofs.Selection
import DacRack.Proofs.Operations
import DacRack.Proofs.Motion
import DacRack.Proofs.Decimal
import DacRack.Proofs.Wire
import DacRack.Proofs.Instrument
import DacRack.Proofs.Service
import DacRack.Proofs.Registers
import DacRack.Proofs.Doubles
import DacRack.Proofs.Floats
import DacRack.Proofs.Codes
import DacRack.Proofs.Slopes
import DacRack.Proofs.Ramps
import DacRack.Proofs.LockStep
import DacRack.Proofs.Overflow
import DacRack.Proofs.Addressing
import DacRack.Proofs.Effects
import DacRack.Proofs.Reachable
import DacRack.Proofs.RampAll
import DacRack.Proofs.WordStore
import DacRack.Proofs.Capacity
import DacRack.Proofs.RoundTrips
import DacRack.Proofs.SetVolt
import DacRack.Proofs.LineEnds
import DacRack.Proofs.Echoes
import DacRack.Proofs.Probes
import DacRack.Proofs.Scripts
import DacRack.Proofs.Arming
import DacRack.Proofs.Deadlines
import DacRack.Proofs.Polling
import DacRack.Proofs.TickCount
import DacRack.Proofs.Independence
import DacRack.Proofs.ReplyGrammar
import DacRack.Proofs.Blame
import DacRack.Proofs.WriteBack
import DacRack.Proofs.Connecting
import DacRack.Proofs.Talks
import DacRack.Proofs.TwoWords
import DacRack.Proofs.Marks
import DacRack.Proofs.Rendering
import DacRack.Proofs.Encodable
import DacRack.Proofs.Arrivals
import DacRack.Proofs.Pipe

import ElseOS.Arch.Discovery
import ElseOS.Arch.Exceptions
import ElseOS.Arch.GsParity
import ElseOS.Arch.Pci
import ElseOS.Arch.SyscallFrame
import ElseOS.Elf.Residue
import ElseOS.Fs.Malformed
import ElseOS.Ipc.Delivery
import ElseOS.Ipc.Ports
import ElseOS.Memory.Dma
import ElseOS.Memory.DmaPool
import ElseOS.Memory.FrameExclusivity
import ElseOS.Services.BlockRequests
import ElseOS.Services.Bootstrap
import ElseOS.Services.Bounds
import ElseOS.Services.Fat16
import ElseOS.Services.PacketBuffer
import ElseOS.Services.Persistence
import ElseOS.Services.Printers
import ElseOS.Services.ReceiveRing
import ElseOS.Services.Reception
import ElseOS.Services.Storage
import ElseOS.Services.Terminal
import ElseOS.Services.Transmission
import ElseOS.Syscall.Handles
import ElseOS.Syscall.Isolation
import ElseOS.Syscall.Mediation
import ElseOS.Syscall.Minting
import ElseOS.Syscall.Routing
import ElseOS.Syscall.Translation
import ElseOS.Task.Confinement
import ElseOS.Task.Fairness
import ElseOS.Task.HardwareContext
import ElseOS.Task.Interrupts
import ElseOS.Task.Resumption
import ElseOS.Task.RoundRobin
import ElseOS.Task.Survivors
import ElseOS.Task.Yielding

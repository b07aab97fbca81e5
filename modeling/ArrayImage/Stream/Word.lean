import ArrayImage.RegisterMap

/-!
# ArrayImage.Stream.Word

The words of stream-switch registers.

A circuit uses one master and one slave register. A packet route uses a master register, which
takes the packets of some selects of one arbiter, and for each rule a slot of the slave port, which
sends matching packets to one select of one arbiter.
-/

namespace ArrayImage
namespace StreamWord

open RegisterMap

/-- The master word of a circuit that is fed by slave port `slave`. -/
def circuitMaster (slave : Word) : Word :=
  StreamPort.enable.flag true ||| StreamPort.packetEnable.flag false |||
    StreamPort.dropHeader.set ((slave &&& 0x80) >>> 7) ||| StreamPort.config.set slave

def circuitSlave : Word :=
  StreamPort.enable.flag true ||| StreamPort.packetEnable.flag false

/-- The master word of a packet route: the selects of `mask` of one arbiter. -/
def packetMaster (mask arbiter : Word) (dropHeader : Bool) : Word :=
  StreamPort.enable.flag true ||| StreamPort.packetEnable.flag true |||
    StreamPort.dropHeader.flag dropHeader ||| StreamPort.config.set ((mask <<< 3) ||| arbiter)

def packetSlave : Word :=
  StreamPort.enable.flag true ||| StreamPort.packetEnable.flag true

def packetSlot (id mask msel arbiter : UInt8) : Word :=
  PacketSlot.id.set (.ofByte id) ||| PacketSlot.mask.set (.ofByte mask) |||
    PacketSlot.enable.flag true ||| PacketSlot.msel.set (.ofByte msel) |||
    PacketSlot.arbiter.set (.ofByte arbiter)

end StreamWord
end ArrayImage

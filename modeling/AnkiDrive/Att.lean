import AnkiDrive.VehicleResponse

/-! `att.h`: the numbers of the attribute protocol. -/
namespace AnkiDrive
open CModel

def attOpError : UInt8 := 0x01
def attOpMtuReq : UInt8 := 0x02
def attOpMtuResp : UInt8 := 0x03
def attOpFindInfoReq : UInt8 := 0x04
def attOpFindInfoResp : UInt8 := 0x05
def attOpFindByTypeReq : UInt8 := 0x06
def attOpFindByTypeResp : UInt8 := 0x07
def attOpReadByTypeReq : UInt8 := 0x08
def attOpReadByTypeResp : UInt8 := 0x09
def attOpReadReq : UInt8 := 0x0a
def attOpReadBlobReq : UInt8 := 0x0c
def attOpReadBlobResp : UInt8 := 0x0d
def attOpReadMultiReq : UInt8 := 0x0e
def attOpReadMultiResp : UInt8 := 0x0f
def attOpReadByGroupReq : UInt8 := 0x10
def attOpReadByGroupResp : UInt8 := 0x11
def attOpWriteReq : UInt8 := 0x12
def attOpWriteResp : UInt8 := 0x13
def attOpWriteCmd : UInt8 := 0x52
def attOpPrepWriteReq : UInt8 := 0x16
def attOpPrepWriteResp : UInt8 := 0x17
def attOpExecWriteReq : UInt8 := 0x18
def attOpExecWriteResp : UInt8 := 0x19
def attOpHandleInd : UInt8 := 0x1d
def attOpHandleCnf : UInt8 := 0x1e

def attEcodeAttrNotFound : UInt8 := 0x0a
def attEcodeIo : UInt8 := 0x80
def attEcodeTimeout : UInt8 := 0x81
def attEcodeAborted : UInt8 := 0x82

def attCancelAllPrepWrites : UInt8 := 0x00
def attWriteAllPrepWrites : UInt8 := 0x01

/-- `pdu[0]` -/
def opcodeOf (pdu : List UInt8) : UInt8 := pdu.headD 0

@[simp] theorem opcodeOf_cons (op : UInt8) (rest : List UInt8) : opcodeOf (op :: rest) = op := rfl

/-- `att_get_u16(&pdu[i])` -/
def attGetU16 (pdu : List UInt8) (i : Nat) : UInt16 := word16 (pdu.getD i 0) (pdu.getD (i + 1) 0)

end AnkiDrive

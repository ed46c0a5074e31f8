import Ewts.Integration.Ngen.Log
import Ewts.Runtime.Cpp.Logger
import Ewts.Runtime.Fortran.Writer

/-!
# Status calls

The C, C++ and Fortran runtimes have one function each that reports a status by its fields. Under
ngen it calls `ewts_ngen_payload_status`, which logs a payload; elsewhere it does nothing.
-/

namespace Ewts

/-- The arguments of `ewts_ngen_payload_status`; a null pointer is `none`. -/
structure StatusCall (F : Type) where
  ewtsId : Option Text
  status : Option Text
  prog : F
  msg : Option Text
  modnm : Option Text

variable {F : Type}

namespace Ngen

/-- The fields that `ewts_ngen_payload_status` passes on: strings up to their first NUL, empty
ones for null pointers. -/
def statusFields (a : StatusCall F) : PayloadFields F where
  status := cStr (a.status.getD [])
  prog := a.prog
  msg := cStr (a.msg.getD [])
  modnm := cStr (a.modnm.getD [])

/-- `ewts_ngen_payload_status(ewts_id, status, prog, msg, modnm)`. -/
def Process.ewtsNgenPayloadStatus (fl : Floats F) (p : Process) (os : Os) (order : HashOrder)
    (clock : Clock) (a : StatusCall F) : Process :=
  p.logPayload fl os order clock (a.ewtsId.getD []) (statusFields a)

/-- A process after what a runtime called, if it called anything. -/
def Process.receive (fl : Floats F) (p : Process) (os : Os) (order : HashOrder) (clock : Clock)
    (call : Option (StatusCall F)) : Process :=
  call.elim p (p.ewtsNgenPayloadStatus fl os order clock)

end Ngen

/-- `EwtsPayloadStatus(ewts_id, status, prog, msg, modnm)`; the pointers are passed on. -/
def C.ewtsPayloadStatus (env : Environ) (linked : Bool) (a : StatusCall F) :
    Option (StatusCall F) :=
  if isNgenActive env && linked then some a else none

/-- `PayloadStatus(ewts_id, status, prog, msg, modnm)`; `linked` tells whether `dlsym` found the
bridge. -/
def Cpp.payloadStatus (env : Environ) (linked : Bool) (a : StatusCall F) :
    Option (StatusCall F) :=
  if isNgenActive env && linked then
    some
      { ewtsId := some (a.ewtsId.getD [])
        status := some (a.status.getD [])
        prog := a.prog
        msg := some (a.msg.getD [])
        modnm := some (a.modnm.getD []) }
  else none

/-- `payload_status(ewts_id, status, prog, msg, modnm)`, without and with the bridge compiled
in. -/
def Fortran.payloadStatus (bridge : Bool) (env : Environ) (ewtsId status : Text) (prog : F)
    (msg modnm : Text) : Option (StatusCall F) :=
  if bridge && isNgenActive env then
    some
      { ewtsId := some (trim ewtsId ++ [0])
        status := some (trim status ++ [0])
        prog := prog
        msg := some (trim msg ++ [0])
        modnm := some (trim modnm ++ [0]) }
  else none

end Ewts

import Ewts.Correctness.Columns
import Ewts.Correctness.Journals
import Ewts.Runtime.C.Threads
import Ewts.Runtime.Cpp.Registry

/-!
# Coupled runs

A process of ngen with native modules in it. The modules log through the C, the C++ or the
Fortran runtime, whose bridged messages arrive at `ewts_ngen_log`. What a module writes to files
of its own is left out.
-/

namespace Ewts

/-- What a runtime hands to the bridge. -/
structure Forward where
  ewtsId : Text
  level : Int
  message : Text

namespace C

/-- What goes over the bridge. -/
def Output.forward : Output → Option Forward
  | bridge ewtsId level message => some ⟨ewtsId, level, message⟩
  | standalone .. => none

end C

namespace Cpp

/-- What goes over the bridge. -/
def Output.forward : Output → Option Forward
  | bridge ewtsId level message => some ⟨ewtsId, level, message⟩
  | standalone .. | filesystemError => none

/-- The loggers that a call finds or makes. -/
def Call.find (call : Call) (loggers : Loggers) (current : Option Text) : Loggers :=
  match call.lookup current with
  | some (key, ewtsNgen) => loggers.get key ewtsNgen
  | none => loggers

/-- A whole call: what it leads to, and the loggers afterwards. -/
def Call.run (host : Host) (loggers : Loggers) (current : Option Text) (call : Call) :
    Option Output × Loggers :=
  let found := call.find loggers current
  match call.method with
  | none => (none, found)
  | some method =>
    let r := method.run host host.now (found.at (call.key current))
    (r.1, Function.update found (call.key current) (some r.2.2))

/-- The level and the text of a call that logs. -/
def Call.message (call : Call) : Option (Int × Text) :=
  match call.method with
  | some (.log level message) => message.map fun message => (level, message)
  | _ => none

end Cpp

namespace Fortran

/-- What goes over the bridge. -/
def Output.forward : Output → Option Forward
  | bridge ewtsId level message => some ⟨ewtsId, level, message⟩
  | standalone .. => none

end Fortran

namespace Ngen

/-! ## Modules -/

/-- The native modules of a process, by the loggers of their runtimes. -/
structure Modules where
  c : List C.LoggerState
  cpp : Cpp.Loggers
  /-- The `g_current_logger` of the thread that the modules run in. -/
  current : Option Text
  fortran : Fortran.Registry

/-- No module has logged yet. -/
def Modules.start (vars : Fortran.Variables) : Modules := ⟨[], fun _ => none, none, ⟨vars, []⟩⟩

/-- A call of a module into its runtime, with what it meets outside the library. The environment
and the bridge are those of the process. -/
inductive ModuleCall where
  | c (host : C.Host) (call : C.Call)
  | cpp (host : Cpp.Host) (call : Cpp.Call)
  /-- `write_log_module`. -/
  | fortran (host : Fortran.Host) (id msg : Text) (lvl : Int)

/-- What happens in a process: ngen itself is called, or a module logs. The clock shows the times
that ngen reads for a message that arrives. -/
inductive Op (F : Type) where
  | ngen (i : Input F)
  | module (clock : Clock) (call : ModuleCall)

/-- A process of ngen with its modules. -/
structure Coupled where
  ngen : Process
  modules : Modules
  /-- Whether a failed read has stopped the program. -/
  stopped : Bool

/-- `ewts_ngen_log` gets a message. -/
def Input.ofForward {F : Type} (clock : Clock) (m : Forward) : Input F :=
  .event (.ewtsNgenLog clock (some m.ewtsId) m.level (some m.message))

section Step

variable (read : Fortran.ListRead) (bridge : Bool)

/-- What a call hands to the bridge, and the modules afterwards; `none` when the program stops. -/
def Modules.run (env : Environ) (m : Modules) : ModuleCall → Option (Option Forward × Modules)
  | .c host call =>
    let host : C.Host := { host with env := env, linked := true }
    some ((call.output host m.c).bind C.Output.forward, { m with c := call.run host m.c })
  | .cpp host call =>
    let host : Cpp.Host := { host with env := env, linked := true }
    let r := call.run host m.cpp m.current
    some (r.1.bind Cpp.Output.forward, { m with cpp := r.2, current := call.next m.current })
  | .fortran host id msg lvl =>
    let host : Fortran.Host := { host with env := env }
    (Fortran.writeLogModule read bridge host m.fortran id msg lvl).map fun r =>
      (r.1.bind Fortran.Output.forward, { m with fortran := r.2.registry })

variable {F : Type} (fl : Floats F) (order : HashOrder) (reader : Json.TreeReader)

/-- One step of the process. -/
def Coupled.step (s : Coupled) (i : Os × Op F) : Coupled :=
  if s.stopped then s
  else match i.2 with
  | .ngen input => { s with ngen := s.ngen.take fl order reader (i.1, input) }
  | .module clock call =>
    match s.modules.run read bridge s.ngen.env call with
    | none => { s with stopped := true }
    | some (sent, modules) =>
      let inputs := sent.toList.map fun m => (i.1, Input.ofForward clock m)
      { s with ngen := runFrom (Process.take fl order reader) s.ngen inputs, modules := modules }

end Step

/-! ## Modules without filters -/

/-- How the loggers of the modules route: a state of the C runtime by the flags of all `EwtsInit`
of its id, a logger of the C++ runtime by the flag of its first lookup. -/
structure Routes where
  c : Text → Bool
  cpp : Text → Option Bool
  current : Option Text

/-- No module has logged yet. -/
def Routes.start : Routes := ⟨fun _ => false, fun _ => none, none⟩

namespace Routes

/-- The flags of the loggers of the C++ runtime once a call has found its own. -/
def found (r : Routes) (call : Cpp.Call) : Text → Option Bool :=
  match call.lookup r.current with
  | some (key, ewtsNgen) => Function.update r.cpp key (some ((r.cpp key).getD ewtsNgen))
  | none => r.cpp

/-- The routes after a call. -/
def next (r : Routes) : ModuleCall → Routes
  | .c _ call =>
    { r with c := Function.update r.c call.key (r.c call.key || call.ewtsNgen) }
  | .cpp _ call => { r with cpp := r.found call, current := call.next r.current }
  | .fortran .. => r

/-- What a module would hand to the bridge if its runtime had no filter. -/
def sent (bridge : Bool) (r : Routes) : ModuleCall → Option Forward
  | .c _ call =>
    if r.c call.key then call.message.map fun m => ⟨call.key, m.1, m.2⟩ else none
  | .cpp _ call =>
    if r.found call (call.key r.current) = some true then
      call.message.map fun m => ⟨call.key r.current, m.1, m.2⟩
    else none
  | .fortran _ id msg lvl =>
    if bridge then some ⟨Fortran.trim (Fortran.loggerKey id), lvl, Fortran.trim msg⟩ else none

variable {F : Type}

/-- The routes after a step. -/
def step (r : Routes) (i : Os × Op F) : Routes :=
  match i.2 with
  | .ngen _ => r
  | .module _ call => r.next call

/-- What ngen gets in a step if no runtime has a filter. -/
def inputs (bridge : Bool) (r : Routes) (i : Os × Op F) : List (Os × Input F) :=
  match i.2 with
  | .ngen input => [(i.1, input)]
  | .module clock call =>
    (r.sent bridge call).toList.map fun m => (i.1, Input.ofForward clock m)

end Routes

end Ngen

end Ewts

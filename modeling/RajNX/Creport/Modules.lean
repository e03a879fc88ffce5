import RajNX.Lib.BlockWalk
import RajNX.Lib.CString
import RajNX.Lib.Fields
import RajNX.Lib.Loop

/-!
# The modules of a crashed process

`creport` looks for the modules of a crashed process from the addresses that its threads hold: it goes back from an
address to the start of a group of regions, and from there on it takes down all executable regions. The process is
what the kernel answers about it. A look outside of a buffer and a loop without an end stop the program.
-/

namespace RajNX.Creport

open BlockWalk CString Loop

/-- The permissions of a region. -/
inductive MemoryPermission
  | none
  | r
  | rw
  | rx
  | other
deriving Repr, DecidableEq

/-- The types of regions that the search tells apart. -/
inductive MemoryType
  | unmapped
  | reserved
  | mapped
deriving Repr, DecidableEq

/-- What the search reads of a `MemoryInfo`. -/
structure MemoryInfo where
  addr : Nat
  size : Nat
  type : MemoryType
  perm : MemoryPermission
deriving Repr, DecidableEq

/-- Where a region ends. -/
def MemoryInfo.stop (mi : MemoryInfo) : Nat := mi.addr + mi.size

/-- A process under debugging: its regions as queried at addresses, and reads of its memory. Both may fail. -/
structure DebugProcess where
  svcQueryDebugProcessMemory : Nat → Option MemoryInfo
  svcReadDebugProcessMemory : Nat → Nat → Option (List UInt8)

/-- The regions of a process. -/
def DebugProcess.blocks (p : DebugProcess) : Blocks MemoryInfo where
  start := MemoryInfo.addr
  size := MemoryInfo.size
  query := p.svcQueryDebugProcessMemory

/-- What the kernel promises: regions cut the 64-bit space into non-empty parts of whole pages, of which only whole
words matter here, and a read has as many bytes as asked for. -/
structure DebugProcess.Lawful (p : DebugProcess) : Prop where
  blocks : p.blocks.Lawful 64
  aligned : ∀ {a mi}, p.svcQueryDebugProcessMemory a = some mi → 4 ∣ mi.addr
  length_read : ∀ {a n bytes}, p.svcReadDebugProcessMemory a n = some bytes → bytes.length = n

/-- How the program goes wrong. -/
inductive Stop
  | outside
  | noEnd
deriving Repr, DecidableEq

/-- `ModuleCountMax` -/
def moduleCountMax : Nat := 0x60

/-- `ModuleNameLengthMax` -/
def moduleNameLengthMax : Nat := 0x20

/-- `ModuleBuildIdLength` -/
def moduleBuildIdLength : Nat := 0x20

/-- `ModulePathLengthMax` -/
def modulePathLengthMax : Nat := 0x200

/-- The size of a `RoDataStart`, that is of a `ModulePath`. -/
def roDataStartSize : Nat := 0x208

/-- The size of `s_last_rodata_pages`. -/
def lastRodataPagesSize : Nat := 2 * 0x1000

/-- `GnuSignature` -/
def gnuSignature : List UInt8 := [0x47, 0x4E, 0x55, 0x00]

/-- `ModuleInfo` -/
structure ModuleInfo where
  name : List UInt8
  build_id : List UInt8
  start_address : Nat
  end_address : Nat
deriving Repr, DecidableEq

/-- Bytes of a buffer, which all have to be inside. -/
def bytesAt (buf : List UInt8) (ofs n : Nat) : Except Stop (List UInt8) :=
  if ofs + n ≤ buf.length then .ok ((buf.drop ofs).take n) else .error .outside

/-! ## `GetModuleName` and `GetModuleBuildId` -/

/-- Where the name in a path starts: the loop of `GetModuleName` from an offset downwards, and `ofs++` after it. -/
def nameOffset (path : List UInt8) (ofs : Nat) : Except Stop Nat :=
  match path[ofs]? with
  | none => .error .outside
  | some c =>
    if c = 0x2F ∨ c = 0x5C then .ok (ofs + 1)
    else match ofs with
      | 0 => .ok 0
      | ofs + 1 => nameOffset path ofs

/-- The end of `GetModuleName`: the name is copied from the path into a cleared buffer. -/
def copyName (path : List UInt8) (path_length : Nat) : Except Stop (List UInt8) := do
  let ofs ← nameOffset path path_length
  let name_size := min moduleNameLengthMax (modulePathLengthMax - ofs)
  let src ← bytesAt path ofs name_size
  let out_name := strncpy (List.replicate name_size 0) src ++ List.replicate (moduleNameLengthMax - name_size) 0
  return out_name.set (moduleNameLengthMax - 1) 0

/-- The loop of `GetModuleBuildId` from an offset downwards. -/
def findBuildId (pages : List UInt8) (ofs : Nat) : Except Stop (List UInt8) := do
  if (← bytesAt pages ofs gnuSignature.length) = gnuSignature then
    bytesAt pages (ofs + gnuSignature.length) moduleBuildIdLength
  else match ofs with
    | 0 => return List.replicate moduleBuildIdLength 0
    | ofs + 1 => findBuildId pages ofs

namespace DebugProcess

variable (p : DebugProcess)

/-- A read into a buffer of some size. -/
def readInto (bufferSize address size : Nat) : Except Stop (Option (List UInt8)) :=
  if size ≤ bufferSize then .ok (p.svcReadDebugProcessMemory address size) else .error .outside

/-- `GetModuleName` -/
def getModuleName (text_start_address ro_start_address : Nat) : Except Stop (List UInt8) := do
  let cleared := List.replicate moduleNameLengthMax 0
  match p.svcQueryDebugProcessMemory ro_start_address with
  | none => return cleared
  | some mi =>
    if mi.perm ≠ .r then return cleared
    else
      let rw_start_address := mi.stop % 2 ^ 64
      match ← p.readInto roDataStartSize ro_start_address roDataStartSize with
      | none => return cleared
      | some rodata_start =>
        -- the offset of the deprecated format lies over `zero` and `path_length`
        let deprecated_rwdata_offset := Fields.fieldAt 8 rodata_start 0
        let path_length := Fields.fieldAt 4 rodata_start 4
        let path := rodata_start.drop 8
        if (text_start_address + deprecated_rwdata_offset) % 2 ^ 64 = rw_start_address then return cleared
        else if Fields.fieldAt 4 rodata_start 0 ≠ 0 ∨ path_length ≠ strnlen path modulePathLengthMax then return cleared
        else copyName path path_length

/-- `GetModuleBuildId` -/
def getModuleBuildId (ro_start_address : Nat) : Except Stop (List UInt8) := do
  let cleared := List.replicate moduleBuildIdLength 0
  match p.svcQueryDebugProcessMemory ro_start_address with
  | none => return cleared
  | some mi =>
    if mi.perm ≠ .r then return cleared
    else
      let read_size := if lastRodataPagesSize ≤ mi.size then lastRodataPagesSize else lastRodataPagesSize / 2
      match ← p.readInto lastRodataPagesSize ((mi.stop + 2 ^ 64 - read_size) % 2 ^ 64) read_size with
      | none => return cleared
      | some pages => findBuildId pages (read_size - gnuSignature.length - moduleBuildIdLength)

/-! ## `TryFindModule` -/

/-- A region, if its permission is the given one the region before it. -/
def regionBefore (perm : MemoryPermission) (mi : MemoryInfo) : Option MemoryInfo :=
  if mi.perm = perm then p.svcQueryDebugProcessMemory ((mi.addr + 2 ^ 64 - 4) % 2 ^ 64) else some mi

/-- A turn of the loop of `TryFindModule`. -/
def findTurn (mi : MemoryInfo) : Turn MemoryInfo (Option Nat) :=
  if 0 < mi.addr then
    match p.svcQueryDebugProcessMemory ((mi.addr + 2 ^ 64 - 4) % 2 ^ 64) with
    | none => .leave none
    | some mi' => if mi'.type = .unmapped then .leave (some (mi'.stop % 2 ^ 64)) else .again mi'
  else .leave none

/-- `TryFindModule` -/
def tryFindModule (guess : Nat) : Except Stop (Option Nat) :=
  match p.svcQueryDebugProcessMemory guess with
  | none => .ok none
  | some mi =>
    match (p.regionBefore .rw mi).bind (p.regionBefore .r) with
    | none => .ok none
    | some mi =>
      if mi.perm ≠ .rx then .ok none
      else match loop p.findTurn (2 ^ 64) mi with
        | none => .error .noEnd
        | some base => .ok base

end DebugProcess

/-! ## `TryAddModule` -/

/-- A lower-case hexadecimal digit. -/
def hexDigit (n : Nat) : UInt8 := .ofNat (if n < 10 then 0x30 + n else 0x57 + n)

/-- The first bytes of a build id as text, each as `%02x`. -/
def hexText (bytes : List UInt8) : List UInt8 :=
  bytes.flatMap fun b => [hexDigit (b.toNat / 16), hexDigit (b.toNat % 16)]

/-- The name of a module without a name: `snprintf` of the format `[%02x%02x%02x%02x]` into the buffer. -/
def fakeName (name build_id : List UInt8) : List UInt8 :=
  let text := 0x5B :: hexText (build_id.take 4) ++ [0x5D]
  text ++ 0 :: name.drop (text.length + 1)

namespace DebugProcess

variable (p : DebugProcess)

/-- What `TryAddModule` takes down for an executable region. -/
def moduleOf (mi : MemoryInfo) : Except Stop ModuleInfo := do
  let start_address := mi.addr
  let end_address := mi.stop % 2 ^ 64
  let name ← p.getModuleName start_address end_address
  let build_id ← p.getModuleBuildId end_address
  let name := if cString name = [] then fakeName name build_id else name
  return { name, build_id, start_address, end_address }

/-- A turn of the loop of `TryAddModule` takes down a region that is executable. -/
def addRegion (modules : List ModuleInfo) (mi : MemoryInfo) : Except Stop (List ModuleInfo) := do
  if mi.perm = .rx then
    let m ← p.moduleOf mi
    return modules ++ [m]
  else return modules

/-- The loop of `TryAddModule` from an address on. -/
def addModules (modules : List ModuleInfo) (cur_address : Nat) : Except Stop (List ModuleInfo) :=
  if modules.length < moduleCountMax then
    match p.svcQueryDebugProcessMemory cur_address with
    | none => .ok modules
    | some mi => do
      let modules ← p.addRegion modules mi
      let next := (cur_address + mi.size) % 2 ^ 64
      if mi.type = .unmapped ∨ mi.type = .reserved then .ok modules
      else if _h : mi.size = 0 ∨ next ≤ cur_address then .ok modules
      else addModules modules next
  else .ok modules
termination_by 2 ^ 64 - cur_address
decreasing_by
  rw [not_or, Nat.not_le] at _h
  have := Nat.mod_lt (cur_address + mi.size) (Nat.two_pow_pos 64)
  omega

/-- `TryAddModule` -/
def tryAddModule (modules : List ModuleInfo) (guess : Nat) : Except Stop (List ModuleInfo) := do
  match ← p.tryFindModule guess with
  | none => return modules
  | some base_address =>
    if modules.any fun m => m.start_address ≤ base_address ∧ base_address < m.end_address then return modules
    else p.addModules modules base_address

end DebugProcess

/-- What is read of a thread. -/
structure ThreadInfo where
  pc : Nat
  lr : Nat
  stack_trace : List Nat
deriving Repr, DecidableEq

namespace DebugProcess

variable (p : DebugProcess)

/-- `FindModulesFromThreadInfo` -/
def findModulesFromThreadInfo (modules : List ModuleInfo) (thread : ThreadInfo) : Except Stop (List ModuleInfo) := do
  let modules ← p.tryAddModule modules thread.pc
  let modules ← p.tryAddModule modules thread.lr
  thread.stack_trace.foldlM p.tryAddModule modules

/-- The modules that are found from some threads, one after the other. -/
def findModules (threads : List ThreadInfo) : Except Stop (List ModuleInfo) :=
  threads.foldlM p.findModulesFromThreadInfo []

end DebugProcess

end RajNX.Creport

import LinuxModule.Base.Heap
import LinuxModule.Base.Stdio
import LinuxModule.Base.Walk

set_option autoImplicit false

namespace LinuxModule.Top

open Stdio UserCopy

def procNameLen : Nat := 64
def threadNameLen : Nat := 32
def initProcs : Nat := 50
def threadMult : Nat := 8
def maxLine : Nat := 256

structure CpuInfo where
  utime : UInt64
  ntime : UInt64
  stime : UInt64
  itime : UInt64
  iowtime : UInt64
  irqtime : UInt64
  sirqtime : UInt64
deriving DecidableEq

-- A char array of a record is read as a C string, so it is modelled by its bytes before
-- the NUL. Nothing ever writes policy.
structure ProcInfo where
  next : Option Nat
  pid : Int
  tid : Int
  uid : UInt32
  gid : UInt32
  name : List UInt8
  tname : List UInt8
  state : UInt8
  utime : UInt64
  stime : UInt64
  deltaUtime : UInt64
  deltaStime : UInt64
  deltaTime : UInt64
  vss : Int
  rss : Int
  numThreads : Int
  policy : List UInt8
deriving DecidableEq

-- How the program can stop: die() with its message, or a crash.
inductive Stop where
  | die (message : String)
  | nullPointer
  | outOfBounds
  | badAddress
  | beyondBuffer
  | divideByZero
deriving DecidableEq, Repr

-- The records malloc has handed out are never given back to it; the arrays are.
structure Globals where
  procs : Heap ProcInfo
  arrays : Heap (List (Option Nat))
  oldProcs : Option Nat
  newProcs : Option Nat
  numOldProcs : Nat
  numNewProcs : Nat
  freeProcs : Option Nat
  numUsedProcs : Int
  numFreeProcs : Int
  oldCpu : CpuInfo
  newCpu : CpuInfo

def noCpu : CpuInfo := ⟨0, 0, 0, 0, 0, 0, 0⟩

def initial : Globals where
  procs := Heap.empty
  arrays := Heap.empty
  oldProcs := none
  newProcs := none
  numOldProcs := 0
  numNewProcs := 0
  freeProcs := none
  numUsedProcs := 0
  numFreeProcs := 0
  oldCpu := noCpu
  newCpu := noCpu

def readProc (s : Globals) (proc : Nat) : Except Stop ProcInfo :=
  match s.procs.read proc with
  | none => .error .badAddress
  | some info => .ok info

def updateProc (proc : Nat) (f : ProcInfo → Except Stop ProcInfo) (s : Globals) : Except Stop Globals := do
  let info ← readProc s proc
  let info ← f info
  .ok { s with procs := s.procs.store proc info }

-- malloc(sizeof(*proc)) is asked only when no record is free; what it returns holds
-- whatever was there.
def allocProc (malloc : Option ProcInfo) (s : Globals) : Except Stop (Nat × Globals) :=
  match s.freeProcs with
  | some proc => do
      let info ← readProc s proc
      .ok (proc, { s with
        freeProcs := info.next
        numFreeProcs := s.numFreeProcs - 1
        numUsedProcs := s.numUsedProcs + 1 })
  | none =>
      match malloc with
      | none => .error (.die "Could not allocate struct process_info.\n")
      | some info => .ok (s.procs.size, { s with
          procs := s.procs.alloc info
          numUsedProcs := s.numUsedProcs + 1 })

def freeProc (s : Globals) (proc : Nat) : Except Stop Globals := do
  let s ← updateProc proc (fun info => .ok { info with next := s.freeProcs }) s
  .ok { s with
    freeProcs := some proc
    numUsedProcs := s.numUsedProcs - 1
    numFreeProcs := s.numFreeProcs + 1 }

-- The array behind old_procs or new_procs.
def procArray (array : Option Nat) (s : Globals) : Except Stop (Nat × List (Option Nat)) :=
  match array with
  | none => .error .nullPointer
  | some address =>
      match s.arrays.read address with
      | none => .error .badAddress
      | some slots => .ok (address, slots)

def setSlot (i : Nat) (proc : Option Nat) (s : Globals) : Except Stop Globals := do
  let (address, slots) ← procArray s.newProcs s
  if i < slots.length then .ok { s with arrays := s.arrays.store address (slots.set i proc) }
  else .error .outOfBounds

-- The first `count` cells of an array, as a loop over them reads them.
def firstSlots (array : Option Nat) (count : Nat) (s : Globals) : Except Stop (List (Option Nat)) := do
  if count = 0 then .ok []
  else
    let (_, slots) ← procArray array s
    if count ≤ slots.length then .ok (slots.take count) else .error .outOfBounds

section Files

def parenOpen : UInt8 := 40
def parenClose : UInt8 := 41

def skipped (count : Nat) : List (Directive ProcInfo) := skips count

-- " %c %*d (ten times) %lu %lu %*d (seven times) %lu %ld"; vss is a long.
def statFormat : List (Directive ProcInfo) :=
  [.space, .char fun b proc => { proc with state := b }] ++ (skipped 10 ++
    ([.space, .unsigned fun n proc => { proc with utime := n },
      .space, .unsigned fun n proc => { proc with stime := n }] ++ (skipped 7 ++
    [.space, .unsigned fun n proc => { proc with vss := cLong n.toNat },
      .space, .long fun z proc => { proc with rss := z }])))

-- A file that is read line by line: none when fopen fails. When fgets fails the buffer
-- keeps what was on the stack.
structure StatFile where
  text : Option (List UInt8)
  stack : List UInt8
deriving DecidableEq

def statLine (file : StatFile) (text : List UInt8) : Except Stop (List UInt8) :=
  match fgets maxLine text with
  | some line => .ok (cstr line)
  | none =>
      match scan file.stack with
      | .error _ => .error .beyondBuffer
      | .ok line => .ok line

-- The buffer is cut in two at the first '(' and the last ')'.
def parseStat (buf : List UInt8) (proc : ProcInfo) : ProcInfo :=
  match strchr buf parenOpen, strrchr buf parenClose with
  | some openParen, some closeParen =>
      let buf := (buf.set openParen 0).set closeParen 0
      let proc := { proc with tname := (cstr (buf.drop (openParen + 1))).take (threadNameLen - 1) }
      sscanf statFormat (cstr (buf.drop (closeParen + 1))) proc
  | _, _ => proc

def readStat (file : StatFile) (proc : ProcInfo) : Except Stop ProcInfo :=
  match file.text with
  | none => .ok proc
  | some text => do
      let buf ← statLine file text
      .ok (parseStat buf proc)

-- fgets leaves the empty line in place when it fails.
def readCmdline (file : Option (List UInt8)) (proc : ProcInfo) : ProcInfo :=
  match file with
  | none => proc
  | some text =>
      let line := cstr ((fgets maxLine text).getD [])
      if line ≠ [] then { proc with name := line.take (procNameLen - 1) } else { proc with name := [] }

def literals {σ : Type} (text : List UInt8) : List (Directive σ) := text.map .literal

-- "Uid: %u" and "Gid: %u".
def uidFormat : List (Directive (UInt32 × UInt32)) :=
  literals [85, 105, 100, 58] ++ [.space, .unsigned fun n ids => (n.toUInt32, ids.2)]

def gidFormat : List (Directive (UInt32 × UInt32)) :=
  literals [71, 105, 100, 58] ++ [.space, .unsigned fun n ids => (ids.1, n.toUInt32)]

def statusLine (ids : UInt32 × UInt32) (line : List UInt8) : UInt32 × UInt32 :=
  sscanf gidFormat (cstr line) (sscanf uidFormat (cstr line) ids)

-- uid and gid start with what is on the stack.
def readStatus (file : Option (List UInt8)) (uninit : UInt32 × UInt32) (proc : ProcInfo) : ProcInfo :=
  match file with
  | none => proc
  | some text =>
      let ids := (fgetsAll maxLine [] text).foldl statusLine uninit
      { proc with uid := ids.1, gid := ids.2 }

-- "cpu  %lu %lu %lu %lu %lu %lu %lu"
def cpuFormat : List (Directive CpuInfo) :=
  literals [99, 112, 117] ++
    [.space, .unsigned fun n cpu => { cpu with utime := n },
      .space, .unsigned fun n cpu => { cpu with ntime := n },
      .space, .unsigned fun n cpu => { cpu with stime := n },
      .space, .unsigned fun n cpu => { cpu with itime := n },
      .space, .unsigned fun n cpu => { cpu with iowtime := n },
      .space, .unsigned fun n cpu => { cpu with irqtime := n },
      .space, .unsigned fun n cpu => { cpu with sirqtime := n }]

end Files
end LinuxModule.Top

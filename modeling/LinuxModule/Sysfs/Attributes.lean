import LinuxModule.Base.Kstrto
import LinuxModule.Base.Runs
import Mathlib.Logic.Function.Basic

set_option autoImplicit false

namespace LinuxModule.Sysfs

open Decimal Kstrto
open Scanf (newline)

def enoent : Int := 2
def eio : Int := 5
def enomem : Int := 12
def pageSize : Nat := 4096

-- sysfs_emit(buf, "%d\n", var)
def sysfsEmit (var : Int32) : List UInt8 := signed var.toInt ++ [newline]

-- The variables of kobject-example.c, and those of a foo_obj of kset-example.c.
structure Vars where
  foo : Int32
  baz : Int32
  bar : Int32
deriving DecidableEq

def zeroed : Vars := ⟨0, 0, 0⟩

-- The functions get the attribute they are called for; they look at its name.
structure Attribute where
  name : String
  show_ : Option (Vars → String → List UInt8)
  store : Option (Vars → String → List UInt8 → Nat → Int × Vars)

def fooShow (vars : Vars) (_attr : String) : List UInt8 := sysfsEmit vars.foo

def fooStore (vars : Vars) (_attr : String) (buf : List UInt8) (count : Nat) : Int × Vars :=
  match kstrtoint buf with
  | .error ret => (ret, vars)
  | .ok var => (count, { vars with foo := var })

def bShow (vars : Vars) (attr : String) : List UInt8 :=
  let var := if attr = "baz" then vars.baz else vars.bar
  sysfsEmit var

def bStore (vars : Vars) (attr : String) (buf : List UInt8) (count : Nat) : Int × Vars :=
  match kstrtoint buf with
  | .error ret => (ret, vars)
  | .ok var => (count, if attr = "baz" then { vars with baz := var } else { vars with bar := var })

def fooAttribute : Attribute := ⟨"foo", some fooShow, some fooStore⟩
def bazAttribute : Attribute := ⟨"baz", some bShow, some bStore⟩
def barAttribute : Attribute := ⟨"bar", some bShow, some bStore⟩

-- attrs of kobject-example.c, foo_default_attrs of kset-example.c
def attrs : List Attribute := [fooAttribute, bazAttribute, barAttribute]

inductive Answer where
  | data (bytes : List UInt8)
  | ret (value : Int)
deriving DecidableEq

-- foo_attr_show of kset-example.c; the attributes of kobject-example.c have the kernel's
-- own kobj_attr_show, which is the same.
def attrShow (vars : Vars) (attr : Attribute) : Answer :=
  match attr.show_ with
  | none => .ret (-eio)
  | some show_ => .data (show_ vars attr.name)

def attrStore (vars : Vars) (attr : Attribute) (buf : List UInt8) (len : Nat) : Int × Vars :=
  match attr.store with
  | none => (-eio, vars)
  | some store => store vars attr.name buf len

-- A file is read to its end, or written at its start. sysfs passes on a page at most, and
-- no empty write.
def readFile (file : String) (vars : Vars) : Answer :=
  match attrs.find? (·.name = file) with
  | none => .ret (-enoent)
  | some attr => attrShow vars attr

def writeFile (file : String) (bytes : List UInt8) (vars : Vars) : Answer × Vars :=
  match attrs.find? (·.name = file) with
  | none => (.ret (-enoent), vars)
  | some attr =>
      let buf := bytes.take pageSize
      if buf = [] then (.ret 0, vars)
      else
        let (value, vars) := attrStore vars attr buf buf.length
        (.ret value, vars)

-- What the files are for: integers under names, none where there is no file.
abbrev Settings (κ : Type) := κ → Option Int32

namespace Settings

variable {κ : Type} [DecidableEq κ]

def read (s : Settings κ) (key : κ) : Answer :=
  match s key with
  | none => .ret (-enoent)
  | some var => .data (sysfsEmit var)

def write (s : Settings κ) (key : κ) (bytes : List UInt8) : Answer × Settings κ :=
  match s key with
  | none => (.ret (-enoent), s)
  | some _ =>
      if bytes = [] then (.ret 0, s)
      else
        match kstrtoint (bytes.take pageSize) with
        | .error code => (.ret code, s)
        | .ok var => (.ret (min pageSize bytes.length : Nat), Function.update s key (some var))

end Settings

-- The variable behind each file.
def Vars.settings (vars : Vars) : Settings String := fun file =>
  if file = "foo" then some vars.foo
  else if file = "baz" then some vars.baz
  else if file = "bar" then some vars.bar
  else none

theorem file_cases (file : String) :
    file = "foo" ∨ file = "baz" ∨ file = "bar" ∨ file ≠ "foo" ∧ file ≠ "baz" ∧ file ≠ "bar" := by
  by_cases foo : file = "foo"
  · exact .inl foo
  · by_cases baz : file = "baz"
    · exact .inr (.inl baz)
    · by_cases bar : file = "bar"
      · exact .inr (.inr (.inl bar))
      · exact .inr (.inr (.inr ⟨foo, baz, bar⟩))

theorem no_such_file (file : String) (foo : file ≠ "foo") (baz : file ≠ "baz") (bar : file ≠ "bar") :
    attrs.find? (·.name = file) = none ∧ ∀ vars : Vars, vars.settings file = none := by
  constructor
  · simp [attrs, fooAttribute, bazAttribute, barAttribute, Ne.symm foo, Ne.symm baz, Ne.symm bar]
  · intro vars
    rw [Vars.settings, if_neg foo, if_neg baz, if_neg bar]

theorem read_file_settings (file : String) (vars : Vars) : readFile file vars = vars.settings.read file := by
  rcases file_cases file with rfl | rfl | rfl | ⟨foo, baz, bar⟩
  · rfl
  · rfl
  · rfl
  · obtain ⟨missing, unset⟩ := no_such_file file foo baz bar
    rw [readFile, missing, Settings.read, unset]

def Vars.set (file : String) (var : Int32) (vars : Vars) : Vars :=
  if file = "foo" then { vars with foo := var }
  else if file = "baz" then { vars with baz := var }
  else { vars with bar := var }

theorem settings_set (file : String) (vars : Vars) (var old : Int32) (there : vars.settings file = some old) :
    (vars.set file var).settings = Function.update vars.settings file (some var) := by
  funext other
  rcases file_cases file with rfl | rfl | rfl | ⟨foo, baz, bar⟩
  · by_cases same : other = "foo" <;> simp [Vars.set, Vars.settings, Function.update, same]
  · by_cases same : other = "baz" <;> simp [Vars.set, Vars.settings, Function.update, same]
  · by_cases same : other = "bar" <;> simp [Vars.set, Vars.settings, Function.update, same]
  · rw [(no_such_file file foo baz bar).2 vars] at there
    cases there

theorem attr_found (file : String) (vars : Vars) (old : Int32) (there : vars.settings file = some old) :
    ∃ attr, attrs.find? (·.name = file) = some attr ∧ ∀ buf len, attrStore vars attr buf len =
      match kstrtoint buf with
      | .error ret => (ret, vars)
      | .ok var => (len, vars.set file var) := by
  rcases file_cases file with rfl | rfl | rfl | ⟨foo, baz, bar⟩
  · exact ⟨fooAttribute, rfl, fun _ _ => rfl⟩
  · exact ⟨bazAttribute, rfl, fun _ _ => rfl⟩
  · exact ⟨barAttribute, rfl, fun _ _ => rfl⟩
  · rw [(no_such_file file foo baz bar).2 vars] at there
    cases there

theorem write_file_settings (file : String) (bytes : List UInt8) (vars : Vars) :
    (writeFile file bytes vars).1 = (vars.settings.write file bytes).1 ∧
      (writeFile file bytes vars).2.settings = (vars.settings.write file bytes).2 := by
  cases there : vars.settings file with
  | none =>
      rcases file_cases file with rfl | rfl | rfl | ⟨foo, baz, bar⟩
      · cases there
      · cases there
      · cases there
      · simp only [writeFile, (no_such_file file foo baz bar).1, Settings.write, there, and_self]
  | some old =>
      obtain ⟨attr, found, stores⟩ := attr_found file vars old there
      by_cases empty : bytes = []
      · subst empty
        simp only [writeFile, found, Settings.write, there, List.take_nil, if_true, and_self]
      · have some_bytes : bytes.take pageSize ≠ [] := by simp [empty, pageSize]
        simp only [writeFile, found, Settings.write, there, if_neg empty, if_neg some_bytes, stores]
        cases kstrtoint (bytes.take pageSize) with
        | error code => exact ⟨rfl, rfl⟩
        | ok var => exact ⟨by rw [List.length_take], settings_set file vars var old there⟩

theorem emitted_fits (var : Int32) : (sysfsEmit var).length ≤ pageSize ∧ 0 ∉ sysfsEmit var := by
  have low := var.le_toInt
  have high := var.toInt_lt
  have short : ∀ n < 10 ^ 10, (decimal n).length ≤ 10 := by
    intro n small
    rw [decimal, List.length_map]
    exact (Nat.length_toDigits_le_iff (by decide) (by decide)).mpr small
  have digit : ∀ n, 0 ∉ decimal n := fun n member => absurd (decimal_digits n 0 member) (by decide)
  simp only [sysfsEmit, pageSize, List.length_append, List.length_singleton, List.mem_append, List.mem_singleton]
  cases value : var.toInt with
  | ofNat n =>
      have bounded := short n (by rw [value] at high; simp only [Int.ofNat_eq_natCast] at high; omega)
      exact ⟨by rw [signed]; omega, not_or.mpr ⟨digit n, by decide⟩⟩
  | negSucc n =>
      have bounded := short (n + 1) (by omega)
      exact ⟨by rw [signed, List.length_cons]; omega, not_or.mpr ⟨List.not_mem_cons_of_ne_of_not_mem (by decide) (digit (n + 1)), by decide⟩⟩

theorem emitted_converts (var : Int32) : kstrtoint (sysfsEmit var) = .ok var := by
  rw [kstrtoint_ok_iff, UserCopy.cstr_whole _ (emitted_fits var).2]
  exact signed_line_spells var.toInt

theorem set_same (file : String) (vars : Vars) (old : Int32) (there : vars.settings file = some old) :
    vars.set file old = vars := by
  rcases file_cases file with rfl | rfl | rfl | ⟨foo, baz, bar⟩
  · obtain rfl := Option.some.inj there
    rfl
  · obtain rfl := Option.some.inj there
    rfl
  · obtain rfl := Option.some.inj there
    rfl
  · rw [(no_such_file file foo baz bar).2 vars] at there
    cases there

-- A write is accepted exactly if its text spells an int, and then only this file reads
-- otherwise. What was read from the file can be written back, and changes nothing.
theorem write_file_outcome (file : String) (vars : Vars) (old : Int32) (there : vars.settings file = some old)
    (bytes : List UInt8) :
    (bytes = [] ∧ writeFile file bytes vars = (.ret 0, vars) ∨
      bytes ≠ [] ∧ (∃ var : Int32, Spells (UserCopy.cstr (bytes.take pageSize)) var.toInt ∧
        writeFile file bytes vars = (.ret (min pageSize bytes.length : Nat), vars.set file var)) ∨
      bytes ≠ [] ∧ (∀ var : Int32, ¬ Spells (UserCopy.cstr (bytes.take pageSize)) var.toInt) ∧
        ∃ code, (code = -einval ∨ code = -erange) ∧ writeFile file bytes vars = (.ret code, vars)) ∧
      (readFile file vars = .data bytes → writeFile file bytes vars = (.ret bytes.length, vars)) := by
  obtain ⟨attr, found, stores⟩ := attr_found file vars old there
  constructor
  · by_cases empty : bytes = []
    · subst empty
      exact .inl ⟨rfl, by simp only [writeFile, found, List.take_nil, if_true]⟩
    · have some_bytes : bytes.take pageSize ≠ [] := by simp [empty, pageSize]
      refine .inr ?_
      simp only [writeFile, found, if_neg some_bytes, stores]
      cases converted : kstrtoint (bytes.take pageSize) with
      | error code =>
          refine .inr ⟨empty, fun var spelt => ?_, code, kstrtoint_codes _ code converted, rfl⟩
          rw [(kstrtoint_ok_iff _ var).mpr spelt] at converted
          cases converted
      | ok var => exact .inl ⟨empty, var, (kstrtoint_ok_iff _ var).mp converted, by rw [List.length_take]⟩
  · intro shown
    obtain rfl : sysfsEmit old = bytes := by
      rw [read_file_settings, Settings.read, there] at shown
      exact Answer.data.inj shown
    have some_text : sysfsEmit old ≠ [] := by simp [sysfsEmit]
    simp only [writeFile, found, List.take_of_length_le (emitted_fits old).1, if_neg some_text, stores, emitted_converts,
      set_same file vars old there]

theorem write_file_outcome_ex : writeFile "baz" [45, 50, 49, 52, 55, 52, 56, 51, 54, 52, 56, 10] ⟨0, -2147483648, 0⟩ =
    (.ret 12, ⟨0, -2147483648, 0⟩) :=
  (write_file_outcome "baz" ⟨0, -2147483648, 0⟩ (-2147483648) rfl _).2 (by decide +kernel)

end LinuxModule.Sysfs

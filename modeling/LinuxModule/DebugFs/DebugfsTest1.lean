import LinuxModule.Base.Runs
import LinuxModule.Base.UserCopy
import Mathlib.Logic.Function.Basic

set_option autoImplicit false

namespace LinuxModule.DebugfsTest1

open UserCopy

def bufSize : Nat := 100
def einval : Int := 22
def efault : Int := 14

abbrev Buf := CharArray bufSize

def fileRead (count pos : Nat) (buf : Buf) : Except Fault (List UInt8 × Nat) := do
  let available ← strlen buf.bytes
  .ok (simpleReadFromBuffer count pos buf.bytes available)

theorem short_fits (count : Nat) (short : ¬ count > bufSize - 1) : count < bufSize := by
  unfold bufSize at *
  omega

def fileWrite (user : UserData) (buf : Buf) : Int × Buf :=
  if long : user.bytes.length > bufSize - 1 then (-einval, buf)
  else
    let (left, buf) := buf.copyFromUser user.bytes user.reach (short_fits _ long).le
    if left ≠ 0 then (-efault, buf)
    else (user.bytes.length, buf.set user.bytes.length 0 (short_fits _ long))

-- A read returns the number of its bytes.
inductive Answer where
  | data (bytes : List UInt8)
  | ret (value : Int)
deriving DecidableEq

inductive Op where
  | write (user : UserData)
  | read (count : Nat)
  | seek (pos : Nat)
deriving DecidableEq

-- The module's one buffer, and the position of each open descriptor.
structure Files (ι : Type) where
  buf : Buf
  pos : ι → Nat

variable {ι : Type} [DecidableEq ι]

def loaded : Files ι := ⟨.zeroed bufSize, fun _ => 0⟩

def call (s : Files ι) (e : ι × Op) : Except Fault (Answer × Files ι) :=
  match e.2 with
  | .write user =>
      let (value, buf) := fileWrite user s.buf
      .ok (.ret value, { s with buf := buf })
  | .read count => do
      let (bytes, pos) ← fileRead count (s.pos e.1) s.buf
      .ok (.data bytes, { s with pos := Function.update s.pos e.1 pos })
  | .seek pos => .ok (.ret pos, { s with pos := Function.update s.pos e.1 pos })

def anyCall (_ : Files ι) (_ : ι × Op) : Prop := True

-- A write that is not rejected for its length.
def attempt : ι × Op → Option UserData
  | (_, .write user) => if user.bytes.length > bufSize - 1 then none else some user
  | _ => none

-- What the buffer reads as after this write, whether or not it faults.
def writtenText (user : UserData) : List UInt8 := cstr (user.bytes.take user.reach)

theorem whole_text (user : UserData) (whole : user.Whole) : writtenText user = cstr user.bytes := by
  rw [writtenText, List.take_of_length_le whole]

theorem file_write_text (user : UserData) (buf : Buf) (short : ¬ user.bytes.length > bufSize - 1) :
    scan (fileWrite user buf).2.bytes = .ok (writtenText user) := by
  have fits := short_fits _ short
  rw [fileWrite, dif_neg short]
  by_cases whole : user.Whole
  · have none_left : ¬ (buf.copyFromUser user.bytes user.reach fits.le).1 ≠ 0 := not_not.mpr (Nat.sub_eq_zero_of_le whole)
    simp only [if_neg none_left]
    rw [CharArray.copy_finished buf user.bytes user.reach fits whole, whole_text user whole]
  · have stopped : user.reach < user.bytes.length := Nat.lt_of_not_le whole
    have some_left : (buf.copyFromUser user.bytes user.reach fits.le).1 ≠ 0 := Nat.sub_ne_zero_of_lt stopped
    simp only [if_pos some_left]
    exact CharArray.copy_stopped buf user.bytes user.reach fits.le stopped

theorem file_read_text (buf : Buf) (text : List UInt8) (holds : scan buf.bytes = .ok text) (count pos : Nat) :
    fileRead count pos buf = .ok ((text.drop pos).take count, pos + ((text.drop pos).take count).length) := by
  obtain ⟨-, -, rest, split⟩ := scan_ok buf.bytes text holds
  rw [fileRead, strlen, holds, except_ok_map, except_ok_bind, split, simple_read_text]

theorem file_write_long (user : UserData) (buf : Buf) (long : user.bytes.length > bufSize - 1) :
    fileWrite user buf = (-einval, buf) := by
  rw [fileWrite, dif_pos long]

theorem call_write (s : Files ι) (i : ι) (user : UserData) :
    call s (i, .write user) = .ok (.ret (fileWrite user s.buf).1, { s with buf := (fileWrite user s.buf).2 }) := rfl

theorem call_read (s : Files ι) (text : List UInt8) (holds : scan s.buf.bytes = .ok text) (i : ι) (count : Nat) :
    call s (i, .read count) = .ok (.data ((text.drop (s.pos i)).take count),
      { s with pos := Function.update s.pos i (s.pos i + ((text.drop (s.pos i)).take count).length) }) := by
  simp only [call, file_read_text s.buf text holds, except_ok_bind]

theorem call_text (s : Files ι) (text : List UInt8) (holds : scan s.buf.bytes = .ok text) (e : ι × Op) :
    ∃ out next, call s e = .ok (out, next) ∧ scan next.buf.bytes = .ok ((attempt e).elim text writtenText) := by
  obtain ⟨i, op⟩ := e
  cases op with
  | write user =>
      refine ⟨_, _, call_write s i user, ?_⟩
      by_cases long : user.bytes.length > bufSize - 1
      · rw [file_write_long user s.buf long, attempt, if_pos long]
        exact holds
      · rw [file_write_text user s.buf long, attempt, if_neg long]
        rfl
  | read count => exact ⟨_, _, call_read s text holds i count, holds⟩
  | seek pos => exact ⟨_, _, rfl, holds⟩

def liveText (evs : List (ι × Op)) : List UInt8 := (evs.filterMap attempt).getLast?.elim [] writtenText

omit [DecidableEq ι] in
theorem live_text_snoc (evs : List (ι × Op)) (e : ι × Op) :
    liveText (evs ++ [e]) = (attempt e).elim (liveText evs) writtenText := by
  rw [liveText, liveText, List.filterMap_append]
  cases tried : attempt e with
  | none => simp only [List.filterMap_cons, tried, List.filterMap_nil, List.append_nil, Option.elim_none]
  | some user => simp only [List.filterMap_cons, tried, List.filterMap_nil, List.getLast?_concat, Option.elim_some]

theorem run_text (evs : List (ι × Op)) :
    ∃ outs last, Run call anyCall loaded evs outs last ∧ scan last.buf.bytes = .ok (liveText evs) := by
  induction evs using List.reverseRecOn with
  | nil => exact ⟨[], loaded, .start, rfl⟩
  | append_singleton evs e ih =>
      obtain ⟨outs, middle, run, holds⟩ := ih
      obtain ⟨out, last, done, holdsLast⟩ := call_text middle (liveText evs) holds e
      refine ⟨outs ++ [out], last, .next evs outs middle e out last run trivial done, ?_⟩
      rw [holdsLast, live_text_snoc]

-- A step of another descriptor, a rejected write, or a read of this one that asks for something.
def KeepsReading (i : ι) (e : ι × Op) : Prop := attempt e = none ∧ e ≠ (i, .read 0) ∧ ∀ pos, e ≠ (i, .seek pos)

def readCount (i : ι) : ι × Op → Option Nat
  | (other, .read count) => if other = i then some count else none
  | _ => none

-- What the reads of one descriptor were given.
def given (i : ι) (evs : List (ι × Op)) (outs : List Answer) : List (List UInt8) :=
  (evs.zip outs).filterMap fun (e, out) =>
    match readCount i e, out with
    | some _, .data bytes => some bytes
    | _, _ => none

omit [DecidableEq ι] in
theorem quiet_text (text : List UInt8) (e : ι × Op) (quiet : attempt e = none) :
    (attempt e).elim text writtenText = text := by
  rw [quiet, Option.elim_none]

theorem own_read (s : Files ι) (text : List UInt8) (holds : scan s.buf.bytes = .ok text) (i : ι) (count : Nat) :
    ∃ next, call s (i, .read count) = .ok (.data ((text.drop (s.pos i)).take count), next) ∧
      scan next.buf.bytes = .ok text ∧ text.drop (next.pos i) = (text.drop (s.pos i)).drop count := by
  refine ⟨_, call_read s text holds i count, holds, ?_⟩
  simp only [Function.update_self, drop_taken]

theorem other_call (s : Files ι) (text : List UInt8) (holds : scan s.buf.bytes = .ok text) (i : ι) (e : ι × Op)
    (quiet : KeepsReading i e) (other : readCount i e = none) :
    ∃ out next, call s e = .ok (out, next) ∧ scan next.buf.bytes = .ok text ∧ next.pos i = s.pos i := by
  obtain ⟨out, next, done, holdsNext⟩ := call_text s text holds e
  rw [quiet_text text e quiet.1] at holdsNext
  refine ⟨out, next, done, holdsNext, ?_⟩
  obtain ⟨j, op⟩ := e
  cases op with
  | write user =>
      cases done
      rfl
  | read count =>
      have apart : i ≠ j := fun same => by simp [readCount, same] at other
      rw [call_read s text holds j count] at done
      cases done
      exact Function.update_of_ne apart _ _
  | seek pos =>
      have apart : i ≠ j := fun same => quiet.2.2 pos (by rw [same])
      cases done
      exact Function.update_of_ne apart _ _

-- Whatever the others do in between, this descriptor is given the rest of the text chunk by chunk.
theorem reads_chunks (i : ι) (text : List UInt8) (more : List (ι × Op)) (s : Files ι)
    (holds : scan s.buf.bytes = .ok text) (quiet : ∀ e ∈ more, KeepsReading i e) :
    ∃ outs last, Run call anyCall s more outs last ∧
      given i more outs = chunks (text.drop (s.pos i)) (more.filterMap (readCount i)) := by
  induction more generalizing s with
  | nil => exact ⟨[], s, .start, rfl⟩
  | cons e more ih =>
      obtain ⟨here, later⟩ := List.forall_mem_cons.mp quiet
      cases asked : readCount i e with
      | none =>
          obtain ⟨out, next, done, holdsNext, stays⟩ := other_call s text holds i e here asked
          obtain ⟨outs, last, run, chunked⟩ := ih next holdsNext later
          refine ⟨out :: outs, last, Run.cons call anyCall s next last e out trivial done more outs run, ?_⟩
          rw [stays] at chunked
          rw [List.filterMap_cons_none asked, ← chunked, given, given, List.zip_cons_cons, List.filterMap_cons_none]
          simp only [asked]
      | some count =>
          obtain rfl : e = (i, .read count) := by
            obtain ⟨j, op⟩ := e
            cases op <;> simp_all [readCount]
          obtain ⟨next, done, holdsNext, moved⟩ := own_read s text holds i count
          obtain ⟨outs, last, run, chunked⟩ := ih next holdsNext later
          refine ⟨_ :: outs, last, Run.cons call anyCall s next last _ _ trivial done more outs run, ?_⟩
          rw [List.filterMap_cons_some asked, chunks, ← moved, ← chunked, given, given, List.zip_cons_cons,
            List.filterMap_cons_some]
          simp only [asked]

theorem counts_positive (i : ι) (more : List (ι × Op)) (quiet : ∀ e ∈ more, KeepsReading i e) (count : Nat)
    (asked : count ∈ more.filterMap (readCount i)) : 0 < count := by
  obtain ⟨⟨j, op⟩, inside, same⟩ := List.mem_filterMap.mp asked
  cases op with
  | read other =>
      obtain ⟨rfl, rfl⟩ : j = i ∧ other = count := by simpa [readCount] using same
      refine Nat.pos_of_ne_zero fun zero => (quiet _ inside).2.1 ?_
      rw [zero]
  | write user => cases same
  | seek pos => cases same

omit [DecidableEq ι] in
theorem live_text_last (before : List (ι × Op)) (i : ι) (user : UserData) (after : List (ι × Op))
    (short : ¬ user.bytes.length > bufSize - 1) (quiet : ∀ e ∈ after, attempt e = none) :
    liveText (before ++ (i, .write user) :: after) = writtenText user := by
  have none_after : after.filterMap attempt = [] := List.filterMap_eq_nil_iff.mpr quiet
  have tried : attempt (i, .write user) = some user := if_neg short
  rw [liveText, List.filterMap_append, List.filterMap_cons_some tried, none_after, List.getLast?_concat, Option.elim_some]

theorem writes_read_back (evs : List (ι × Op)) (unfaulted : ∀ e ∈ evs, ∀ user, attempt e = some user → user.Whole) :
    ∃ outs last, Run call anyCall loaded evs outs last ∧ 0 ∈ last.buf.bytes ∧ (∃ n, strlen last.buf.bytes = .ok n) ∧
      ∀ before i user after, evs = before ++ (i, .write user) :: after → user.bytes.length ≤ bufSize - 1 →
        0 ∉ user.bytes → (∀ e ∈ after, attempt e = none) →
        ∀ j more, last.pos j = 0 → (∀ e ∈ more, KeepsReading j e) →
          ∃ outsMore final, Run call anyCall last more outsMore final ∧
            given j more outsMore = chunks user.bytes (more.filterMap (readCount j)) ∧
            (given j more outsMore).flatten = user.bytes.take (more.filterMap (readCount j)).sum ∧
            ∀ first chunk rest, given j more outsMore = first ++ chunk :: rest →
              (chunk = [] ↔ first.flatten = user.bytes) := by
  obtain ⟨outs, last, run, holds⟩ := run_text evs
  refine ⟨outs, last, run, (scan_ok _ _ holds).1, ⟨_, by rw [strlen, holds, except_ok_map]⟩, ?_⟩
  rintro before i user after rfl short free quiet j more start reading
  have short' : ¬ user.bytes.length > bufSize - 1 := Nat.not_lt.mpr short
  have whole : user.Whole := unfaulted (i, .write user) (by simp) user (if_neg short')
  rw [live_text_last before i user after short' quiet, whole_text user whole, cstr_whole user.bytes free] at holds
  obtain ⟨outsMore, final, runMore, chunked⟩ := reads_chunks j user.bytes more last holds reading
  rw [start, List.drop_zero] at chunked
  refine ⟨outsMore, final, runMore, chunked, ?_, ?_⟩
  · rw [chunked, chunks_flatten]
  · rw [chunked]
    exact chunks_empty_iff user.bytes _ (counts_positive j more reading)

-- The second text is shorter than the first, and another descriptor reads in between.
def shortened : List (Bool × Op) := [(true, .write ⟨[65, 66, 67, 68], 4⟩), (false, .write ⟨[69, 70], 2⟩)]

def readsInTwo : List (Bool × Op) := [(true, .read 1), (false, .read 5), (true, .read 3), (true, .read 1)]

theorem shortened_reads_back : ∃ outs last more final, Run call anyCall loaded shortened outs last ∧
    Run call anyCall last readsInTwo more final ∧ given true readsInTwo more = [[69], [70], []] := by
  obtain ⟨outs, last, run, _, _, back⟩ := writes_read_back shortened (by decide)
  have computed : Run call anyCall loaded shortened _ _ :=
    .next [_] _ _ _ _ _ (.next [] [] _ _ _ _ .start trivial rfl) trivial rfl
  obtain ⟨-, rfl⟩ := Run.unique _ _ _ _ _ _ _ _ computed run
  have reading : ∀ e ∈ readsInTwo, KeepsReading true e := by
    simp [readsInTwo, KeepsReading, attempt]
  obtain ⟨more, final, runMore, chunked, _⟩ :=
    back [_] false ⟨[69, 70], 2⟩ [] rfl (by decide) (by decide) (by simp) true readsInTwo rfl reading
  exact ⟨outs, _, more, final, run, runMore, chunked⟩

-- The text of the last write that reported success.
def savedText (evs : List (ι × Op)) : List UInt8 :=
  ((evs.filterMap attempt).filter fun user => decide user.Whole).getLast?.elim [] fun user => cstr user.bytes

def ReadsFromStart (buf : Buf) (text : List UInt8) : Prop :=
  ∀ count, fileRead count 0 buf = .ok (text.take count, (text.take count).length)

theorem reads_from_start_iff (buf : Buf) (live text : List UInt8) (holds : scan buf.bytes = .ok live) :
    ReadsFromStart buf text ↔ live = text := by
  have read := fun count => file_read_text buf live holds count 0
  simp only [List.drop_zero, Nat.zero_add] at read
  constructor
  · intro reads
    have same : live.take (live.length + text.length) = text.take (live.length + text.length) :=
      congrArg Prod.fst (Except.ok.inj ((read _).symm.trans (reads _)))
    rwa [List.take_of_length_le (Nat.le_add_right ..), List.take_of_length_le (Nat.le_add_left ..)] at same
  · rintro rfl count
    exact read count

omit [DecidableEq ι] in
theorem saved_text_whole (evs : List (ι × Op)) (user : UserData) (last : (evs.filterMap attempt).getLast? = some user)
    (whole : user.Whole) : savedText evs = writtenText user := by
  obtain ⟨earlier, split⟩ := List.getLast?_eq_some_iff.mp last
  have kept : [user].filter (fun user => decide user.Whole) = [user] := by simpa using whole
  rw [savedText, split, List.filter_append, kept, List.getLast?_concat, Option.elim_some, whole_text user whole]

omit [DecidableEq ι] in
theorem live_is_saved_iff (evs : List (ι × Op)) :
    liveText evs = savedText evs ↔
      ∀ user, (evs.filterMap attempt).getLast? = some user → user.Whole ∨ cstr (user.bytes.take user.reach) = savedText evs := by
  cases last : (evs.filterMap attempt).getLast? with
  | none =>
      have unwritten : evs.filterMap attempt = [] := List.getLast?_eq_none_iff.mp last
      simp [liveText, savedText, unwritten]
  | some user =>
      have live : liveText evs = writtenText user := by rw [liveText, last, Option.elim_some]
      simp only [Option.some.injEq, forall_eq', live]
      constructor
      · exact .inr
      · rintro (whole | same)
        · exact (saved_text_whole evs user last whole).symm
        · exact same

-- A write that faults has already changed the text, and goes unseen only where the bytes it
-- did copy read the same.
theorem failed_write_unseen_iff (evs : List (ι × Op)) :
    ∃ outs last, Run call anyCall loaded evs outs last ∧
      (ReadsFromStart last.buf (savedText evs) ↔
        ∀ user, (evs.filterMap attempt).getLast? = some user →
          user.Whole ∨ cstr (user.bytes.take user.reach) = savedText evs) := by
  obtain ⟨outs, last, run, holds⟩ := run_text evs
  refine ⟨outs, last, run, ?_⟩
  rw [reads_from_start_iff last.buf (liveText evs) _ holds, live_is_saved_iff]

-- "AB" has been written, and a write of "CD" faults after one byte: the text is then "C".
theorem fault_changes_text :
    ¬ ∀ (evs : List (Unit × Op)) outs last, Run call anyCall loaded evs outs last →
      ReadsFromStart last.buf (savedText evs) := by
  intro claimed
  have run : Run call anyCall loaded [((), .write ⟨[65, 66], 2⟩), ((), .write ⟨[67, 68], 1⟩)] _ _ :=
    .next [_] _ _ _ _ _ (.next [] [] _ _ _ _ .start trivial rfl) trivial rfl
  have same := (reads_from_start_iff _ [67] _ rfl).mp (claimed _ _ _ run)
  exact absurd same (by decide)

end LinuxModule.DebugfsTest1

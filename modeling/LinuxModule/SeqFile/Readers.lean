import LinuxModule.SeqFile.Session
import LinuxModule.Base.Runs

set_option autoImplicit false

namespace LinuxModule.SeqFile

-- Where seq_read stands with one open file: between two reads, with what l_start or
-- l_next has returned still to be shown, or with its record in the buffer.
inductive Phase (τ : Type) where
  | between
  | started (p : τ) (header : List Line)
  | advanced (p : τ)
  | kept (p : τ)
deriving DecidableEq

-- text is what has been put out and not thrown away again.
structure OpenFile (τ : Type) where
  index : Nat
  phase : Phase τ
  text : List Line

def opened {τ : Type} : OpenFile τ := ⟨0, .between, []⟩

-- The calls of seq_read. A record that does not fit is shown and thrown away, and a
-- buffer that is full ends the read before the record is shown. l_stop does nothing.
inductive Op where
  | start
  | next
  | show (fits : Bool)
  | stop
deriving DecidableEq

def enabled {τ : Type} : Phase τ → Op → Prop
  | .between, .start => True
  | .started _ _, .show _ => True
  | .advanced _, .show _ => True
  | .advanced _, .stop => True
  | .kept _, .next => True
  | _, _ => False

instance {τ : Type} (phase : Phase τ) (op : Op) : Decidable (enabled phase op) := by
  cases phase <;> cases op <;> simp only [enabled] <;> infer_instance

variable {τ : Type} [DecidableEq τ]

def keep (f : OpenFile τ) (p : τ) (out : List Line) (fits : Bool) : OpenFile τ :=
  if fits then { f with phase := .kept p, text := f.text ++ out } else { f with phase := .between }

-- One call for this file, with the module-wide offset before and after it.
def call (ring : TaskRing τ) (offset : Nat) (f : OpenFile τ) (op : Op) : Except Fault (Nat × OpenFile τ) :=
  match f.phase, op with
  | .between, .start => do
      let (header, p) ← lStart ring f.index
      match p with
      | none => .ok (offset, f)
      | some task => .ok (offset, { f with phase := .started task header })
  | .started p header, .show fits => .ok (offset, keep f p (header ++ [lShow ring p offset]) fits)
  | .advanced p, .show fits => .ok (offset, keep f p [lShow ring p offset] fits)
  | .advanced _, .stop => .ok (offset, { f with phase := .between })
  | .kept p, .next =>
      let (task, r) := advance ring p ⟨f.index, offset⟩
      match task with
      | none => .ok (r.offset, { f with index := r.index, phase := .between })
      | some task => .ok (r.offset, { f with index := r.index, phase := .advanced task })
  | _, _ => .ok (offset, f)

structure Readers (τ ι : Type) where
  offset : Nat
  files : ι → OpenFile τ

variable {ι : Type} [DecidableEq ι]

def loaded : Readers τ ι := ⟨1, fun _ => opened⟩

def readersEnabled (s : Readers τ ι) (e : ι × Op) : Prop := enabled (s.files e.1).phase e.2

instance (s : Readers τ ι) (e : ι × Op) : Decidable (readersEnabled s e) := inferInstanceAs (Decidable (enabled _ _))

def readersStep (ring : TaskRing τ) (s : Readers τ ι) (e : ι × Op) : Except Fault (Unit × Readers τ ι) :=
  (call ring s.offset (s.files e.1) e.2).map fun r => ((), ⟨r.1, Function.update s.files e.1 r.2⟩)

def ReadToEnd (ring : TaskRing τ) (f : OpenFile τ) : Prop := f.index = ring.size ∧ f.phase = .between

-- When this reader's record is put out, offset holds its own position (1, as the module
-- sets it, at the first record).
def OwnPosition (i : ι) (s : Readers τ ι) (e : ι × Op) : Prop :=
  e = (i, .show true) → s.offset = if (s.files i).index = 0 then 1 else (s.files i).index

instance (i : ι) (s : Readers τ ι) (e : ι × Op) : Decidable (OwnPosition i s e) := inferInstanceAs (Decidable (_ → _))

instance (ring : TaskRing τ) (f : OpenFile τ) : Decidable (ReadToEnd ring f) := inferInstanceAs (Decidable (_ ∧ _))

def Undisturbed (ring : TaskRing τ) (i : ι) (evs : List (ι × Op)) : Prop :=
  Run.Always (readersStep ring) readersEnabled loaded (OwnPosition i) evs

def keptRecords (f : OpenFile τ) : Nat :=
  match f.phase with
  | .kept _ => f.index + 1
  | _ => f.index

def ownHeader (index : Nat) : List Line := if index = 0 then [.header] else []

-- The position a session has reached, whatever the others do.
def Positioned (ring : TaskRing τ) (index : Nat) : Phase τ → Prop
  | .between => index ≤ ring.size
  | .started p header => index < ring.size ∧ p = ring.task index ∧ header = ownHeader index
  | .advanced p => 0 < index ∧ index < ring.size ∧ p = ring.task index
  | .kept p => index < ring.size ∧ p = ring.task index

omit [DecidableEq τ] in
theorem up_to_succ (ring : TaskRing τ) (offset k : Nat) :
    upTo ring offset (k + 1) = upTo ring offset k ++ (ownHeader k ++ [recordAt ring offset k]) := by
  rw [upTo, if_neg (Nat.succ_ne_zero k), List.range_succ, List.map_append]
  by_cases first : k = 0
  · simp [upTo, ownHeader, first]
  · simp [upTo, ownHeader, first]

omit [DecidableEq τ] in
theorem record_own_iff (ring : TaskRing τ) (offset k : Nat) :
    lShow ring (ring.task k) offset = recordAt ring 1 k ↔ offset = if k = 0 then 1 else k := by
  simp [lShow, recordAt]

omit [DecidableEq τ] in
theorem text_grows_iff (ring : TaskRing τ) (offset k : Nat) (text : List Line) :
    text ++ (ownHeader k ++ [lShow ring (ring.task k) offset]) = upTo ring 1 (k + 1) ↔
      text = upTo ring 1 k ∧ offset = if k = 0 then 1 else k := by
  rw [up_to_succ, ← record_own_iff ring offset k]
  constructor
  · intro same
    obtain ⟨sameText, sameEnd⟩ := List.append_inj' same (by simp)
    exact ⟨sameText, by simpa using sameEnd⟩
  · rintro ⟨rfl, same⟩
    rw [same]

theorem start_call (ring : TaskRing τ) (offset index : Nat) (text : List Line) (n : Nat) (after : OpenFile τ)
    (inside : index ≤ ring.size) (done : call ring offset ⟨index, .between, text⟩ .start = .ok (n, after)) :
    n = offset ∧ (after = ⟨index, .between, text⟩ ∧ index = ring.size ∨
      index < ring.size ∧ after = ⟨index, .started (ring.task index) (ownHeader index), text⟩) := by
  by_cases first : index = 0
  · simp only [call, lStart, first, if_pos, except_ok_bind] at done
    cases done
    exact ⟨rfl, .inr ⟨by rw [first]; exact ring.nonempty, by rw [first]; rfl⟩⟩
  · simp only [call, l_start_later ring index first, except_ok_bind] at done
    by_cases ended : index = ring.size
    · rw [ended, if_pos (task_size ring)] at done
      cases done
      exact ⟨rfl, .inl ⟨by rw [ended], ended⟩⟩
    · have below : index < ring.size := by omega
      rw [if_neg (task_apart ring index (Nat.pos_of_ne_zero first) below)] at done
      cases done
      exact ⟨rfl, .inr ⟨below, by rw [ownHeader, if_neg first]⟩⟩

theorem next_call (ring : TaskRing τ) (two : 2 ≤ ring.size) (offset index : Nat) (text : List Line) (n : Nat)
    (after : OpenFile τ) (inside : index < ring.size)
    (done : call ring offset ⟨index, .kept (ring.task index), text⟩ .next = .ok (n, after)) :
    index + 1 < ring.size ∧ n = index + 1 ∧ after = ⟨index + 1, .advanced (ring.task (index + 1)), text⟩ ∨
      index + 1 = ring.size ∧ n = offset ∧ after = ⟨ring.size, .between, text⟩ := by
  by_cases more : index + 1 < ring.size
  · simp only [call, advance_inside ring ⟨index, offset⟩ more] at done
    cases done
    exact .inl ⟨more, rfl, rfl⟩
  · simp only [call, advance_end ring two ⟨index, offset⟩ (by simp; omega)] at done
    cases done
    exact .inr ⟨by omega, rfl, rfl⟩

-- One call keeps the session where it belongs, and keeps its text the listing exactly
-- as long as offset holds its own position whenever a record is put out.
theorem call_step (ring : TaskRing τ) (two : 2 ≤ ring.size) (offset n : Nat) (f after : OpenFile τ) (op : Op)
    (sofar : Positioned ring f.index f.phase) (allowed : enabled f.phase op) (done : call ring offset f op = .ok (n, after)) :
    Positioned ring after.index after.phase ∧ (after.text = upTo ring 1 (keptRecords after) ↔
      f.text = upTo ring 1 (keptRecords f) ∧
        (op = .show true → offset = if f.index = 0 then 1 else f.index)) := by
  obtain ⟨index, phase, text⟩ := f
  change Positioned ring index phase at sofar
  cases phase with
  | between =>
      cases op with
      | start =>
          obtain ⟨_, ⟨rfl, _⟩ | ⟨below, rfl⟩⟩ := start_call ring offset index text n after sofar done
          · exact ⟨sofar, by simp [keptRecords]⟩
          · exact ⟨⟨below, rfl, rfl⟩, by simp [keptRecords]⟩
      | next => exact absurd allowed id
      | «show» fits => exact absurd allowed id
      | stop => exact absurd allowed id
  | started p header =>
      obtain ⟨below, rfl, rfl⟩ := sofar
      cases op with
      | «show» fits =>
          cases fits with
          | true =>
              cases done
              exact ⟨⟨below, rfl⟩, (text_grows_iff ring offset index text).trans (by simp [keptRecords])⟩
          | false =>
              cases done
              exact ⟨Nat.le_of_lt below, by simp [keep, keptRecords]⟩
      | start => exact absurd allowed id
      | next => exact absurd allowed id
      | stop => exact absurd allowed id
  | advanced p =>
      obtain ⟨positive, below, rfl⟩ := sofar
      cases op with
      | «show» fits =>
          cases fits with
          | true =>
              cases done
              have later : ownHeader index = [] := if_neg (Nat.ne_of_gt positive)
              have grows := text_grows_iff ring offset index text
              rw [later, List.nil_append] at grows
              exact ⟨⟨below, rfl⟩, grows.trans (by simp [keptRecords])⟩
          | false =>
              cases done
              exact ⟨Nat.le_of_lt below, by simp [keep, keptRecords]⟩
      | stop =>
          cases done
          exact ⟨Nat.le_of_lt below, by simp [keptRecords]⟩
      | start => exact absurd allowed id
      | next => exact absurd allowed id
  | kept p =>
      obtain ⟨below, rfl⟩ := sofar
      cases op with
      | next =>
          obtain ⟨more, _, rfl⟩ | ⟨last, _, rfl⟩ := next_call ring two offset index text n after below done
          · exact ⟨⟨Nat.succ_pos _, more, rfl⟩, by simp [keptRecords]⟩
          · exact ⟨Nat.le_refl _, by simp [keptRecords, last]⟩
      | start => exact absurd allowed id
      | «show» fits => exact absurd allowed id
      | stop => exact absurd allowed id

theorem readers_run (ring : TaskRing τ) (two : 2 ≤ ring.size) (i : ι) (evs : List (ι × Op)) (outs : List Unit)
    (last : Readers τ ι) (run : Run (readersStep ring) readersEnabled loaded evs outs last) :
    Positioned ring (last.files i).index (last.files i).phase ∧
      ((last.files i).text = upTo ring 1 (keptRecords (last.files i)) ↔ Undisturbed ring i evs) := by
  induction run with
  | start => exact ⟨Nat.zero_le _, by simp [loaded, opened, keptRecords, upTo, Undisturbed, Run.Always]⟩
  | next evs outs middle e out after before allowed done ih =>
      obtain ⟨sofar, sofarText⟩ := ih
      have condition := Run.always_snoc_iff (readersStep ring) readersEnabled loaded (OwnPosition i) evs outs middle e before
      obtain ⟨⟨n, f⟩, called, stepped⟩ := (except_map_ok _ _ _).mp done
      obtain ⟨_, rfl⟩ := Prod.mk.inj stepped
      rw [Undisturbed, condition, ← Undisturbed, ← sofarText]
      by_cases own : e.1 = i
      · subst own
        obtain ⟨kept, text⟩ := call_step ring two middle.offset n _ f e.2 sofar allowed called
        simp only [Function.update_self]
        refine ⟨kept, text.trans (and_congr_right fun _ => ?_)⟩
        simp only [OwnPosition, Prod.ext_iff, true_and]
      · simp only [Function.update_of_ne (Ne.symm own)]
        refine ⟨sofar, ?_⟩
        have other : OwnPosition i middle e := fun same => absurd (congrArg Prod.fst same) own
        exact (and_iff_left other).symm

theorem read_text_iff (ring : TaskRing τ) (two : 2 ≤ ring.size) (i : ι) (evs : List (ι × Op)) (outs : List Unit)
    (last : Readers τ ι) (run : Run (readersStep ring) readersEnabled loaded evs outs last)
    (finished : ReadToEnd ring (last.files i)) :
    (last.files i).text = listing ring 1 ↔ Undisturbed ring i evs := by
  obtain ⟨_, text⟩ := readers_run ring two i evs outs last run
  obtain ⟨index, phase⟩ := finished
  have whole : keptRecords (last.files i) = ring.size := by simp only [keptRecords, phase, index]
  rw [listing, ← whole]
  exact text

def aloneStep (ring : TaskRing τ) (s : Nat × OpenFile τ) (op : Op) : Except Fault (Unit × Nat × OpenFile τ) :=
  (call ring s.1 s.2 op).map fun r => ((), r)

def aloneEnabled (s : Nat × OpenFile τ) (op : Op) : Prop := enabled s.2.phase op

theorem alone_calls (ring : TaskRing τ) (offset n last : Nat) (f middle after : OpenFile τ) (op : Op) (ops : List Op)
    (outs : List Unit) (done : call ring offset f op = .ok (n, middle)) (allowed : enabled f.phase op)
    (rest : Run (aloneStep ring) aloneEnabled (n, middle) ops outs (last, after)) :
    Run (aloneStep ring) aloneEnabled (offset, f) (op :: ops) (() :: outs) (last, after) :=
  Run.cons (aloneStep ring) aloneEnabled (offset, f) (n, middle) (last, after) op () allowed
    (by rw [aloneStep, done, except_ok_map]) ops outs rest

-- The calls that one read makes are those of `fill` and `seqRead`.
theorem fill_calls (ring : TaskRing τ) (room : Nat) (p : τ) (r : Reader) (text : List Line) :
    ∃ ops outs, Run (aloneStep ring) aloneEnabled (r.offset, ⟨r.index, .kept p, text⟩) ops outs
      ((fill ring room p r).2.offset, ⟨(fill ring room p r).2.index, .between, text ++ (fill ring room p r).1⟩) := by
  induction room generalizing p r text with
  | zero =>
      cases moved : advance ring p r with
      | mk task next =>
          have filled : fill ring 0 p r = ([], next) := by rw [fill, moved]
          rw [filled, List.append_nil]
          cases task with
          | none =>
              have ends : call ring r.offset ⟨r.index, .kept p, text⟩ .next =
                  .ok (next.offset, ⟨next.index, .between, text⟩) := by simp only [call, moved]
              exact ⟨_, _, alone_calls ring _ _ _ _ _ _ _ _ _ ends trivial .start⟩
          | some task =>
              have moves : call ring r.offset ⟨r.index, .kept p, text⟩ .next =
                  .ok (next.offset, ⟨next.index, .advanced task, text⟩) := by simp only [call, moved]
              have stops : call ring next.offset ⟨next.index, .advanced task, text⟩ .stop =
                  .ok (next.offset, ⟨next.index, .between, text⟩) := rfl
              exact ⟨_, _, alone_calls ring _ _ _ _ _ _ _ _ _ moves trivial
                (alone_calls ring _ _ _ _ _ _ _ _ _ stops trivial .start)⟩
  | succ room ih =>
      cases moved : advance ring p r with
      | mk task next =>
          cases task with
          | none =>
              have filled : fill ring (room + 1) p r = ([], next) := by rw [fill, moved]
              have ends : call ring r.offset ⟨r.index, .kept p, text⟩ .next =
                  .ok (next.offset, ⟨next.index, .between, text⟩) := by simp only [call, moved]
              rw [filled, List.append_nil]
              exact ⟨_, _, alone_calls ring _ _ _ _ _ _ _ _ _ ends trivial .start⟩
          | some task =>
              have filled : fill ring (room + 1) p r =
                  (lShow ring task next.offset :: (fill ring room task next).1, (fill ring room task next).2) := by
                rw [fill, moved]
              have moves : call ring r.offset ⟨r.index, .kept p, text⟩ .next =
                  .ok (next.offset, ⟨next.index, .advanced task, text⟩) := by simp only [call, moved]
              have shows : call ring next.offset ⟨next.index, .advanced task, text⟩ (.show true) =
                  .ok (next.offset, ⟨next.index, .kept task, text ++ [lShow ring task next.offset]⟩) := rfl
              obtain ⟨ops, outs, rest⟩ := ih task next (text ++ [lShow ring task next.offset])
              rw [List.append_assoc, List.singleton_append] at rest
              rw [filled]
              exact ⟨_, _, alone_calls ring _ _ _ _ _ _ _ _ _ moves trivial
                (alone_calls ring _ _ _ _ _ _ _ ops outs shows trivial rest)⟩

theorem seq_read_calls (ring : TaskRing τ) (room : Nat) (r last : Reader) (out text : List Line)
    (read : seqRead ring room r = .ok (out, last)) :
    ∃ ops outs, Run (aloneStep ring) aloneEnabled (r.offset, ⟨r.index, .between, text⟩) ops outs
      (last.offset, ⟨last.index, .between, text ++ out⟩) := by
  obtain ⟨⟨header, p⟩, began, rest⟩ := (except_bind_ok _ _ _).mp read
  cases p with
  | none =>
      cases rest
      have ends : call ring r.offset ⟨r.index, .between, text⟩ .start = .ok (r.offset, ⟨r.index, .between, text⟩) := by
        simp only [call, began, except_ok_bind]
      rw [List.append_nil]
      exact ⟨_, _, alone_calls ring _ _ _ _ _ _ _ _ _ ends trivial .start⟩
  | some task =>
      have starts : call ring r.offset ⟨r.index, .between, text⟩ .start =
          .ok (r.offset, ⟨r.index, .started task header, text⟩) := by
        simp only [call, began, except_ok_bind]
      have shows : call ring r.offset ⟨r.index, .started task header, text⟩ (.show true) =
          .ok (r.offset, ⟨r.index, .kept task, text ++ (header ++ [lShow ring task r.offset])⟩) := rfl
      obtain ⟨ops, outs, filled⟩ := fill_calls ring room task r (text ++ (header ++ [lShow ring task r.offset]))
      cases rest
      rw [List.append_assoc, List.append_assoc, List.singleton_append] at filled
      exact ⟨_, _, alone_calls ring _ _ _ _ _ _ _ _ _ starts trivial
        (alone_calls ring _ _ _ _ _ _ _ ops outs shows trivial filled)⟩

theorem session_calls (ring : TaskRing τ) (rooms : List Nat) (r last : Reader) (outs : List (List Line)) (text : List Line)
    (read : session ring rooms r = .ok (outs, last)) :
    ∃ ops done, Run (aloneStep ring) aloneEnabled (r.offset, ⟨r.index, .between, text⟩) ops done
      (last.offset, ⟨last.index, .between, text ++ outs.flatten⟩) := by
  induction rooms generalizing r outs text with
  | nil =>
      cases read
      exact ⟨[], [], by simpa using .start⟩
  | cons room rooms ih =>
      obtain ⟨⟨out, middle⟩, first, rest⟩ := (except_bind_ok _ _ _).mp read
      obtain ⟨⟨outsRest, final⟩, later, same⟩ := (except_bind_ok _ _ _).mp rest
      cases same
      obtain ⟨ops, done, ran⟩ := seq_read_calls ring room r middle out text first
      obtain ⟨opsLater, doneLater, ranLater⟩ := ih middle outsRest (text ++ out) later
      rw [List.append_assoc, ← List.flatten_cons] at ranLater
      exact ⟨_, _, Run.append _ _ _ _ _ ops opsLater done doneLater ran ranLater⟩

theorem alone_reads_listing (ring : TaskRing τ) (two : 2 ≤ ring.size) (i : ι) :
    ∃ evs outs last, Run (readersStep ring) readersEnabled (loaded : Readers τ ι) evs outs last ∧
      ReadToEnd ring (last.files i) ∧ (last.files i).text = listing ring 1 := by
  obtain ⟨outs, last, ran, _, ready, printed, moved, _⟩ :=
    session_spec ring two 1 (List.replicate ring.size 0) ⟨0, 1⟩ ⟨Nat.zero_le _, fun _ => rfl⟩
  obtain ⟨ops, done, alone⟩ := session_calls ring _ ⟨0, 1⟩ last outs [] ran
  have ended : last.index = ring.size := by
    have inside := ready.inside
    simp only [List.length_replicate, Nat.zero_add, Nat.min_self] at moved
    omega
  obtain ⟨outsAll, final, run, sameOffset, sameFile⟩ := Run.simulates (aloneStep ring) aloneEnabled (readersStep ring)
    readersEnabled (fun op => (i, op)) (fun s t => t.offset = s.1 ∧ t.files i = s.2) (1, opened) loaded ⟨rfl, rfl⟩
    (by
      rintro ⟨offset, f⟩ now op out ⟨n, after⟩ ⟨rfl, rfl⟩ allowed stepped
      obtain ⟨r, called, same⟩ := (except_map_ok _ _ _).mp stepped
      obtain ⟨_, rfl⟩ := Prod.mk.inj same
      exact ⟨allowed, (), _, by rw [readersStep, called, except_ok_map], rfl, Function.update_self _ _ _⟩)
    ops done _ alone
  refine ⟨_, outsAll, final, run, ?_, ?_⟩
  · rw [sameFile]
    exact ⟨ended, rfl⟩
  · have start : upTo ring 1 0 = [] := by simp [upTo]
    rw [start, List.nil_append, ended] at printed
    rw [sameFile]
    exact printed

-- The text of a reader is that of every reader left undisturbed exactly when it is
-- undisturbed itself.
theorem readers_independent_iff (ring : TaskRing τ) (two : 2 ≤ ring.size) (i : ι) (evs : List (ι × Op)) (outs : List Unit)
    (last : Readers τ ι) (run : Run (readersStep ring) readersEnabled loaded evs outs last)
    (finished : ReadToEnd ring (last.files i)) :
    (∃ evs' outs' last', Run (readersStep ring) readersEnabled (loaded : Readers τ ι) evs' outs' last' ∧
      ReadToEnd ring (last'.files i) ∧ Undisturbed ring i evs') ∧
    ((∀ evs' outs' last', Run (readersStep ring) readersEnabled (loaded : Readers τ ι) evs' outs' last' →
        ReadToEnd ring (last'.files i) → Undisturbed ring i evs' → (last.files i).text = (last'.files i).text) ↔
      Undisturbed ring i evs) := by
  obtain ⟨evsAlone, outsAlone, alone, runAlone, finishedAlone, listed⟩ := alone_reads_listing ring two i
  have undisturbed := (read_text_iff ring two i _ _ alone runAlone finishedAlone).mp listed
  refine ⟨⟨evsAlone, outsAlone, alone, runAlone, finishedAlone, undisturbed⟩, ?_⟩
  rw [← read_text_iff ring two i evs outs last run finished]
  constructor
  · intro same
    rw [same evsAlone outsAlone alone runAlone finishedAlone undisturbed, listed]
  · intro own evs' outs' last' run' finished' undisturbed'
    rw [own, (read_text_iff ring two i evs' outs' last' run' finished').mpr undisturbed']

theorem three_minimal_period : Function.minimalPeriod (fun k : Fin 3 => k + 1) 0 = 3 := by
  have divides : Function.minimalPeriod (fun k : Fin 3 => k + 1) 0 ∣ 3 :=
    Function.IsPeriodicPt.minimalPeriod_dvd (by decide)
  have moves : Function.minimalPeriod (fun k : Fin 3 => k + 1) 0 ≠ 1 := by
    rw [Ne, Function.minimalPeriod_eq_one_iff_isFixedPt]
    decide
  rcases (Nat.dvd_prime Nat.prime_three).mp divides with one | three
  · exact absurd one moves
  · exact three

def threeTasks : TaskRing (Fin 3) where
  initTask := 0
  nextTask := fun k => k + 1
  comm := fun _ => []
  pid := fun k => k.val
  size := 3
  nonempty := by decide
  closed := three_minimal_period

def wholeRead (i : Bool) : List (Bool × Op) :=
  [(i, .start), (i, .show true), (i, .next), (i, .show true), (i, .next), (i, .show true), (i, .next)]

-- Another reader looks at the first task only, which leaves offset alone.
def glance : List (Bool × Op) := (true, .start) :: (true, .show true) :: wholeRead false

theorem glance_leaves_text :
    ∃ outs last, Run (readersStep threeTasks) readersEnabled loaded glance outs last ∧
      ∀ evs' outs' last', Run (readersStep threeTasks) readersEnabled (loaded : Readers (Fin 3) Bool) evs' outs' last' →
        ReadToEnd threeTasks (last'.files false) → Undisturbed threeTasks false evs' →
        (last.files false).text = (last'.files false).text := by
  have read : (Run.eval (readersStep threeTasks) readersEnabled loaded glance).map
      (fun r => decide (ReadToEnd threeTasks (r.2.files false))) = some true := by decide +kernel
  have checked : Run.check (readersStep threeTasks) (OwnPosition false) loaded glance = true := by decide +kernel
  cases ran : Run.eval (readersStep threeTasks) readersEnabled loaded glance with
  | none => simp [ran] at read
  | some r =>
      have finished : ReadToEnd threeTasks (r.2.files false) := by simpa [ran] using read
      have run := Run.eval_run _ _ loaded r.2 glance r.1 ran
      exact ⟨r.1, r.2, run, (readers_independent_iff threeTasks (by decide) false glance r.1 r.2 run finished).2.mpr
        (Run.check_always _ _ _ loaded glance checked)⟩

-- Another reader has read the file before: the first record shows where it got to.
theorem earlier_reader_shows :
    ¬ ∀ (τ ι : Type) (_ : DecidableEq τ) (_ : DecidableEq ι) (ring : TaskRing τ) (i : ι) (evs evs' : List (ι × Op))
      (outs outs' : List Unit) (last last' : Readers τ ι), 2 ≤ ring.size →
      Run (readersStep ring) readersEnabled loaded evs outs last →
      Run (readersStep ring) readersEnabled loaded evs' outs' last' →
      ReadToEnd ring (last.files i) → ReadToEnd ring (last'.files i) →
      (last.files i).text = (last'.files i).text := by
  intro claimed
  have alone : (Run.eval (readersStep threeTasks) readersEnabled loaded (wholeRead false)).map
      (fun r => decide (ReadToEnd threeTasks (r.2.files false) ∧
        (r.2.files false).text = [.header, .record [] 0 1, .record [] 1 1, .record [] 2 2])) = some true := by
    decide +kernel
  have later : (Run.eval (readersStep threeTasks) readersEnabled loaded (wholeRead true ++ wholeRead false)).map
      (fun r => decide (ReadToEnd threeTasks (r.2.files false) ∧
        (r.2.files false).text = [.header, .record [] 0 2, .record [] 1 1, .record [] 2 2])) = some true := by
    decide +kernel
  cases ran : Run.eval (readersStep threeTasks) readersEnabled loaded (wholeRead false) with
  | none => simp [ran] at alone
  | some r =>
      cases ran' : Run.eval (readersStep threeTasks) readersEnabled loaded (wholeRead true ++ wholeRead false) with
      | none => simp [ran'] at later
      | some r' =>
          simp only [ran, Option.map_some, Option.some.injEq, decide_eq_true_eq] at alone
          simp only [ran', Option.map_some, Option.some.injEq, decide_eq_true_eq] at later
          have same := claimed (Fin 3) Bool inferInstance inferInstance threeTasks false _ _ r.1 r'.1 r.2 r'.2 (by decide)
            (Run.eval_run _ _ loaded r.2 _ r.1 ran) (Run.eval_run _ _ loaded r'.2 _ r'.1 ran') alone.1 later.1
          rw [alone.2, later.2] at same
          exact absurd same (by decide)

end LinuxModule.SeqFile

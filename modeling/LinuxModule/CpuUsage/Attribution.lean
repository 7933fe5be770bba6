import LinuxModule.CpuUsage.CursorSafety
import Mathlib.Data.List.Perm.Subperm
import Mathlib.Data.List.Sort
import Mathlib.Logic.Nontrivial.Basic

set_option autoImplicit false

namespace LinuxModule.ProcStat

open Scanf

structure CpuLine where
  label : Numeral
  times : KCpuStat Numeral

namespace CpuLine

def cpu (line : CpuLine) : Nat := line.label.value

def numerals (line : CpuLine) : List Numeral :=
  [line.times.user, line.times.nice, line.times.system, line.times.idle, line.times.iowait, line.times.irq,
    line.times.softirq, line.times.steal, line.times.guest, line.times.guestNice]

def stat (line : CpuLine) : KCpuStat UInt64 where
  user := .ofNat line.times.user.value
  nice := .ofNat line.times.nice.value
  system := .ofNat line.times.system.value
  idle := .ofNat line.times.idle.value
  iowait := .ofNat line.times.iowait.value
  irq := .ofNat line.times.irq.value
  softirq := .ofNat line.times.softirq.value
  steal := .ofNat line.times.steal.value
  guest := .ofNat line.times.guest.value
  guestNice := .ofNat line.times.guestNice.value

def chars (line : CpuLine) : List UInt8 := ProcStat.cpu ++ (line.label.bytes ++ listed line.numerals)

def bytes (line : CpuLine) : List UInt8 := line.chars ++ [newline]

end CpuLine

-- A /proc/stat text: the aggregate line, a line for each CPU that is online, further lines.
structure Text where
  aggregate : List UInt8
  cpus : List CpuLine
  further : List (List UInt8)
  aggregate_line : Line aggregate
  increasing : (cpus.map CpuLine.cpu).Pairwise (· < ·)
  some_further : further ≠ []
  further_lines : ∀ line ∈ further, Line line ∧ ¬ ProcStat.cpu <+: line

namespace Text

def cpuBytes (text : Text) : List UInt8 := text.cpus.flatMap CpuLine.bytes

def header (text : Text) : List UInt8 := text.aggregate ++ newline :: text.cpuBytes

def rest (text : Text) : List UInt8 := text.further.flatMap fun line => line ++ [newline]

def bytes (text : Text) : List UInt8 := text.header ++ text.rest

def online (text : Text) : List Nat := text.cpus.map CpuLine.cpu

end Text

variable {S R : Type} (m : Monitor S R)

-- A run whose kmalloc, filp_open and kernel_read succeed.
def readsText (text : Text) (contents : List UInt8) : Services where
  kmalloc := some contents
  filpOpen := .ok ()
  kernelRead := .ok (text.bytes.take cpuInfoBufsize)

structure Attributed (text : Text) (prev : Nat → S) (messages : List (Message R)) (next : Nat → S) : Prop where
  online : ∀ line ∈ text.cpus, next line.cpu = m.sample line.stat
  offline : ∀ cpu, cpu ∉ text.online → next cpu = prev cpu
  printed : ∀ cpu figures, .usage cpu figures ∈ messages →
    ∃ line ∈ text.cpus, line.cpu = cpu ∧ m.report (prev cpu) (m.sample line.stat) = some figures

def Attributes (numCpus : Nat) (text : Text) : Prop :=
  ∀ contents s, contents.length = cpuInfoBufsize → ∃ messages next,
    m.calculateCpuUsage numCpus (readsText text contents) s = .ok (messages, next) ∧
      Attributed m text s.prev messages next.prev

-- No CPU below an online one is offline, the lines up to the last CPU's are in the buffer, and
-- when the loop goes on after them so is the byte that shows that no CPU line follows.
structure Aligned (numCpus : Nat) (text : Text) : Prop where
  labels : text.online = List.range text.cpus.length
  fits : text.header.length ≤ cpuInfoBufsize
  lookahead : text.cpus.length < numCpus → ¬ text.rest.take (cpuInfoBufsize - text.header.length) <+: cpu

theorem digits_are_word (bytes : List UInt8) (digits : Digits bytes) : Word bytes := by
  intro b member
  obtain ⟨dark, present⟩ := digit_is_dark b (digits b member)
  simp [dark, present]

theorem digits_are_line (bytes : List UInt8) (digits : Digits bytes) : Line bytes := by
  intro b member
  have digit := digits b member
  have present := (digit_is_dark b digit).2
  have inside : b ≠ newline := by
    rintro rfl
    exact absurd digit (by decide)
  simp [inside, present]

theorem line_append (bytes more : List UInt8) (line : Line bytes) (lineMore : Line more) : Line (bytes ++ more) :=
  List.forall_mem_append.mpr ⟨line, lineMore⟩

theorem chars_line (line : CpuLine) : Line line.chars := by
  refine line_append _ _ ?_ (line_append _ _ ?_ ?_)
  · decide +kernel
  · exact digits_are_line _ line.label.bytes_run.1
  · intro b member
    obtain ⟨n, _, here⟩ := List.mem_flatMap.mp member
    rcases List.mem_cons.mp here with rfl | digit
    · decide
    · exact digits_are_line _ n.bytes_run.1 b digit

theorem cpu_line_read (line : CpuLine) (tail : List UInt8) :
    CpuRead (line.chars ++ newline :: tail) (line.numerals.map fun n => .ofNat n.value) := by
  have read := listed_read line.numerals newline tail (by decide)
  have text : line.chars ++ newline :: tail = cpu ++ (line.label.bytes ++ (listed line.numerals ++ newline :: tail)) := by
    simp [CpuLine.chars]
  have begins : ∃ more, listed line.numerals ++ newline :: tail = 32 :: more := ⟨_, rfl⟩
  obtain ⟨more, begins⟩ := begins
  rw [text, begins]
  rw [begins] at read
  exact .numbers line.label.bytes 32 more _ (digits_are_word _ line.label.bytes_run.1) (by decide) read

theorem cpu_line_cut (line : CpuLine) (count : Nat) (short : count < line.bytes.length) : CpuCut (line.bytes.take count) := by
  have dark := digits_are_word _ line.label.bytes_run.1
  have within : count ≤ line.chars.length := by simpa [CpuLine.bytes, Nat.lt_succ_iff] using short
  rw [CpuLine.bytes, List.take_append_of_le_length within, CpuLine.chars]
  rw [CpuLine.chars] at within
  by_cases inCpu : count ≤ cpu.length
  · rw [List.take_append_of_le_length inCpu]
    exact .label _ (List.take_prefix _ _)
  · obtain ⟨after, rfl⟩ := Nat.exists_eq_add_of_le (Nat.le_of_lt (Nat.lt_of_not_le inCpu))
    rw [List.take_length_add_append]
    by_cases inLabel : after ≤ line.label.bytes.length
    · rw [List.take_append_of_le_length inLabel]
      exact .word _ fun b member => dark b (List.mem_of_mem_take member)
    · obtain ⟨more, rfl⟩ := Nat.exists_eq_add_of_lt (Nat.lt_of_not_le inLabel)
      rw [Nat.add_assoc, List.take_length_add_append]
      have room : more + 1 ≤ (listed line.numerals).length := by simp at within; omega
      have cut := listed_cut line.numerals (by simp [CpuLine.numerals]) (more + 1) room
      have begins : ∃ tail, (listed line.numerals).take (more + 1) = 32 :: tail := ⟨_, rfl⟩
      obtain ⟨tail, begins⟩ := begins
      rw [begins] at cut ⊢
      exact .numbers line.label.bytes 32 tail dark (by decide) cut

def stores (prev : Nat → S) : List (Nat × CpuLine) → Nat → S
  | [] => prev
  | (cpu, line) :: more => stores (Monitor.store prev cpu (m.sample line.stat)) more

def reports (prev : Nat → S) : List (Nat × CpuLine) → List (Message R)
  | [] => []
  | (cpu, line) :: more =>
      m.shown cpu (prev cpu) (m.sample line.stat) ++ reports (Monitor.store prev cpu (m.sample line.stat)) more

theorem loop_cpu_line (cpu : Nat) (cpus : List Nat) (line : CpuLine) (tail : List UInt8) (prev : Nat → S) :
    m.cpuLoop (cpu :: cpus) (line.bytes ++ tail) prev =
      (m.cpuLoop cpus tail (Monitor.store prev cpu (m.sample line.stat))).map
        fun result => (m.shown cpu (prev cpu) (m.sample line.stat) ++ result.1, result.2) := by
  have text : line.bytes ++ tail = line.chars ++ newline :: tail := by simp [CpuLine.bytes]
  have scanned := (cpu_read_scan _ _ (cpu_line_read line tail)).1
  rw [text]
  exact loop_line m cpu cpus _ tail prev _ line.stat scanned rfl (next_line_newline line.chars tail (chars_line line))

theorem loop_lines (lines : List CpuLine) (cpus more : List Nat) (tail : List UInt8) (prev : Nat → S)
    (same : cpus.length = lines.length) :
    m.cpuLoop (cpus ++ more) (lines.flatMap CpuLine.bytes ++ tail) prev =
      (m.cpuLoop more tail (stores m prev (cpus.zip lines))).map
        fun result => (reports m prev (cpus.zip lines) ++ result.1, result.2) := by
  induction lines generalizing cpus prev with
  | nil =>
      obtain rfl := List.length_eq_zero_iff.mp same
      cases ran : m.cpuLoop more tail prev <;> simp [stores, reports, ran, Except.map]
  | cons line lines ih =>
      cases cpus with
      | nil => cases same
      | cons cpu cpus =>
          rw [List.flatMap_cons, List.append_assoc, List.cons_append, loop_cpu_line, ih cpus _ (Nat.succ.inj same)]
          rw [List.zip_cons_cons, stores, reports]
          cases m.cpuLoop more tail (stores m (Monitor.store prev cpu (m.sample line.stat)) (cpus.zip lines)) with
          | error fault => rfl
          | ok result => simp [Except.map]

theorem loop_lines_cut (lines : List CpuLine) (cpus : List Nat) (count : Nat) (prev : Nat → S)
    (enough : lines.length ≤ cpus.length) (short : count < (lines.flatMap CpuLine.bytes).length) :
    m.cpuLoop cpus ((lines.flatMap CpuLine.bytes).take count) prev = .error .beyond := by
  induction lines generalizing cpus count prev with
  | nil => simp at short
  | cons line lines ih =>
      cases cpus with
      | nil => simp at enough
      | cons cpu cpus =>
          rw [List.flatMap_cons] at short ⊢
          by_cases here : count < line.bytes.length
          · rw [List.take_append_of_le_length (Nat.le_of_lt here), Monitor.cpu_loop_cons,
              cpu_cut_scan _ (cpu_line_cut line count here)]
            rfl
          · obtain ⟨after, rfl⟩ := Nat.exists_eq_add_of_le (Nat.le_of_not_lt here)
            have shorter : after < (lines.flatMap CpuLine.bytes).length := by
              rw [List.length_append] at short
              omega
            rw [List.take_length_add_append, loop_cpu_line, ih cpus after _ (Nat.le_of_succ_le_succ enough) shorter]
            rfl

theorem store_other (prev : Nat → S) (cpu other : Nat) (now : S) (different : other ≠ cpu) :
    Monitor.store prev cpu now other = prev other := if_neg different

theorem stores_other (pairs : List (Nat × CpuLine)) (prev : Nat → S) (other : Nat) (absent : other ∉ pairs.map Prod.fst) :
    stores m prev pairs other = prev other := by
  induction pairs generalizing prev with
  | nil => rfl
  | cons pair more ih =>
      obtain ⟨cpu, line⟩ := pair
      rw [List.map_cons, List.mem_cons, not_or] at absent
      rw [stores, ih _ absent.2, store_other _ _ _ _ absent.1]

theorem stores_member (pairs : List (Nat × CpuLine)) (prev : Nat → S) (distinct : (pairs.map Prod.fst).Nodup) (cpu : Nat)
    (line : CpuLine) (member : (cpu, line) ∈ pairs) : stores m prev pairs cpu = m.sample line.stat := by
  induction pairs generalizing prev with
  | nil => cases member
  | cons pair more ih =>
      obtain ⟨first, firstLine⟩ := pair
      obtain ⟨fresh, others⟩ := List.nodup_cons.mp distinct
      rcases List.mem_cons.mp member with same | later
      · cases same
        rw [stores, stores_other m more _ cpu fresh]
        exact if_pos rfl
      · exact ih _ others later

theorem reports_member (pairs : List (Nat × CpuLine)) (now prev : Nat → S) (distinct : (pairs.map Prod.fst).Nodup)
    (kept : ∀ cpu ∈ pairs.map Prod.fst, now cpu = prev cpu) (message : Message R) (printed : message ∈ reports m now pairs) :
    ∃ pair ∈ pairs, message ∈ m.shown pair.1 (prev pair.1) (m.sample pair.2.stat) := by
  induction pairs generalizing now with
  | nil => cases printed
  | cons pair more ih =>
      obtain ⟨first, line⟩ := pair
      obtain ⟨fresh, others⟩ := List.nodup_cons.mp distinct
      obtain ⟨keptFirst, keptMore⟩ := List.forall_mem_cons.mp kept
      rcases List.mem_append.mp printed with here | later
      · exact ⟨(first, line), List.mem_cons_self, keptFirst ▸ here⟩
      · have keptLater : ∀ cpu ∈ more.map Prod.fst, Monitor.store now first (m.sample line.stat) cpu = prev cpu := by
          intro cpu member
          have different : cpu ≠ first := by
            rintro rfl
            exact fresh member
          rw [store_other _ _ _ _ different, keptMore cpu member]
        obtain ⟨pair, member, shown⟩ := ih _ others keptLater later
        exact ⟨pair, List.mem_cons_of_mem _ member, shown⟩

theorem header_splits (text : Text) (tail : List UInt8) :
    text.header ++ tail = text.aggregate ++ newline :: (text.cpuBytes ++ tail) := by
  simp [Text.header]

theorem parse_header (numCpus : Nat) (text : Text) (few : text.cpus.length ≤ numCpus) (tail : List UInt8) (prev : Nat → S) :
    m.parse numCpus (text.header ++ tail) prev =
      (m.cpuLoop (List.range' text.cpus.length (numCpus - text.cpus.length)) tail
        (stores m prev ((List.range text.cpus.length).zip text.cpus))).map
          fun result => (reports m prev ((List.range text.cpus.length).zip text.cpus) ++ result.1, result.2) := by
  have split : List.range numCpus =
      List.range text.cpus.length ++ List.range' text.cpus.length (numCpus - text.cpus.length) := by
    have whole := List.range'_append_1 (s := 0) (m := text.cpus.length) (n := numCpus - text.cpus.length)
    rw [Nat.zero_add, Nat.add_sub_cancel' few] at whole
    rw [List.range_eq_range', List.range_eq_range', whole]
  rw [header_splits, Monitor.parse, next_line_newline _ _ text.aggregate_line, except_ok_bind, split, Text.cpuBytes]
  exact loop_lines m text.cpus _ _ tail prev List.length_range

theorem parse_header_cut (numCpus : Nat) (text : Text) (few : text.cpus.length ≤ numCpus) (count : Nat)
    (short : count < text.header.length) (prev : Nat → S) :
    m.parse numCpus (text.header.take count) prev = .error .beyond := by
  rw [Text.header] at short ⊢
  by_cases inAggregate : count ≤ text.aggregate.length
  · rw [List.take_append_of_le_length inAggregate, Monitor.parse,
      next_line_cut _ fun b member => text.aggregate_line b (List.mem_of_mem_take member)]
    rfl
  · obtain ⟨after, rfl⟩ := Nat.exists_eq_add_of_lt (Nat.lt_of_not_le inAggregate)
    have shorter : after < (text.cpus.flatMap CpuLine.bytes).length := by
      rw [List.length_append, List.length_cons, Text.cpuBytes] at short
      omega
    rw [Nat.add_assoc, List.take_length_add_append, List.take_succ_cons, Monitor.parse,
      next_line_newline _ _ text.aggregate_line, except_ok_bind, Text.cpuBytes]
    exact loop_lines_cut m text.cpus _ after prev (by rw [List.length_range]; exact few) shorter

-- The buffer after the read: the text as far as it fits, then whatever was there.
def buffer (text : Text) (contents : List UInt8) : List UInt8 :=
  text.bytes.take cpuInfoBufsize ++ contents.drop (text.bytes.take cpuInfoBufsize).length

theorem text_reads (numCpus : Nat) (text : Text) (contents : List UInt8) (s : State S) :
    m.calculateCpuUsage numCpus (readsText text contents) s =
      (m.parse numCpus (buffer text contents) s.prev).map fun result =>
        (result.1, { prev := result.2, buffers := s.buffers + 1, files := s.files }) := by
  obtain ⟨b, more, delivered⟩ : ∃ b more, text.bytes.take cpuInfoBufsize = b :: more := by
    cases delivered : text.bytes.take cpuInfoBufsize with
    | nil => simp [Text.bytes, Text.header, cpuInfoBufsize] at delivered
    | cons b more => exact ⟨b, more, rfl⟩
  rw [buffer, delivered]
  simp only [Monitor.calculateCpuUsage, readsText, delivered]
  cases m.parse numCpus (b :: more ++ contents.drop (b :: more).length) s.prev <;> rfl

theorem rest_begins (text : Text) : ∃ line more, text.rest = line ++ newline :: more ∧ Line line ∧ ¬ cpu <+: line := by
  have lines := text.further_lines
  have present := text.some_further
  rw [Text.rest]
  cases split : text.further with
  | nil => exact absurd split present
  | cons line more =>
      rw [split] at lines
      obtain ⟨whole, other⟩ := lines line List.mem_cons_self
      exact ⟨line, _, by rw [List.flatMap_cons, List.append_assoc]; rfl, whole, other⟩

theorem no_newline_in_cpu : newline ∉ cpu := by decide

theorem rest_is_no_cpu_line (text : Text) : ¬ cpu <+: text.rest := by
  obtain ⟨line, more, split, _, other⟩ := rest_begins text
  rw [split]
  intro start
  have longer : line ++ [newline] <+: line ++ newline :: more := ⟨more, by simp⟩
  by_cases short : line.length < cpu.length
  · have inside : line ++ [newline] <+: cpu := List.prefix_of_prefix_length_le longer start (by rw [List.length_append]; exact short)
    exact no_newline_in_cpu (inside.subset (by simp))
  · exact other (List.prefix_of_prefix_length_le start (List.prefix_append _ _) (Nat.le_of_not_lt short))

theorem lookahead_mismatch (text : Text) (count : Nat) (more : List UInt8) (enough : ¬ text.rest.take count <+: cpu) :
    sscanf cpuFormat (text.rest.take count ++ more) = .ok [] := by
  rcases literals_cases cpu (text.rest.take count ++ more) (.suppressed :: numbers 10) with ⟨after, whole⟩ | start | mismatch
  · have left : text.rest.take count <+: cpu ++ after := whole ▸ List.prefix_append _ _
    rcases List.prefix_or_prefix_of_prefix left (List.prefix_append cpu after) with short | long
    · exact absurd short enough
    · exact absurd (long.trans (List.take_prefix _ _)) (rest_is_no_cpu_line text)
  · exact absurd ((List.prefix_append _ _).trans start) enough
  · exact mismatch

theorem buffer_fits (text : Text) (contents : List UInt8) (fits : text.header.length ≤ cpuInfoBufsize) :
    ∃ more, buffer text contents =
      text.header ++ (text.rest.take (cpuInfoBufsize - text.header.length) ++ more) := by
  obtain ⟨room, whole⟩ := Nat.exists_eq_add_of_le fits
  refine ⟨contents.drop (text.bytes.take cpuInfoBufsize).length, ?_⟩
  rw [buffer, Text.bytes, whole, List.take_length_add_append, Nat.add_sub_cancel_left, List.append_assoc]

theorem buffer_full (text : Text) (contents : List UInt8) (size : contents.length = cpuInfoBufsize)
    (long : cpuInfoBufsize ≤ text.bytes.length) : buffer text contents = text.bytes.take cpuInfoBufsize := by
  have length : (text.bytes.take cpuInfoBufsize).length = cpuInfoBufsize := List.length_take_of_le long
  rw [buffer, length, List.drop_of_length_le (Nat.le_of_eq size), List.append_nil]

def pairs (text : Text) : List (Nat × CpuLine) := (List.range text.cpus.length).zip text.cpus

theorem pairs_cpus (text : Text) : (pairs text).map Prod.fst = List.range text.cpus.length :=
  List.map_fst_zip (by rw [List.length_range])

theorem text_run (numCpus : Nat) (text : Text) (few : text.cpus.length ≤ numCpus)
    (fits : text.header.length ≤ cpuInfoBufsize)
    (lookahead : text.cpus.length < numCpus → ¬ text.rest.take (cpuInfoBufsize - text.header.length) <+: cpu)
    (contents : List UInt8) (s : State S) :
    m.calculateCpuUsage numCpus (readsText text contents) s =
      .ok (reports m s.prev (pairs text), ⟨stores m s.prev (pairs text), s.buffers + 1, s.files⟩) := by
  obtain ⟨more, split⟩ := buffer_fits text contents fits
  have stuck : m.cpuLoop (List.range' text.cpus.length (numCpus - text.cpus.length))
      (text.rest.take (cpuInfoBufsize - text.header.length) ++ more) (stores m s.prev (pairs text)) =
        .ok ([], stores m s.prev (pairs text)) := by
    by_cases all : text.cpus.length < numCpus
    · exact loop_stuck m _ _ _ [] (lookahead_mismatch text _ more (lookahead all)) (by decide)
    · rw [Nat.sub_eq_zero_of_le (Nat.le_of_not_lt all)]
      rfl
  rw [text_reads, split, parse_header m numCpus text few]
  rw [pairs] at stuck ⊢
  simp [stuck]

theorem aligned_pairs (numCpus : Nat) (text : Text) (aligned : Aligned numCpus text) :
    pairs text = text.cpus.map fun line => (line.cpu, line) := by
  rw [pairs, ← aligned.labels, Text.online]
  exact List.map_prod_right_eq_zip.symm

theorem aligned_attributes (numCpus : Nat) (text : Text) (few : text.cpus.length ≤ numCpus) (aligned : Aligned numCpus text) :
    Attributes m numCpus text := by
  intro contents s _
  refine ⟨_, _, text_run m numCpus text few aligned.fits aligned.lookahead contents s, ?_⟩
  have cpus := pairs_cpus text
  have distinct : ((pairs text).map Prod.fst).Nodup := cpus ▸ List.nodup_range
  have labelled := aligned_pairs numCpus text aligned
  constructor
  · intro line member
    exact stores_member m _ _ distinct line.cpu line (labelled ▸ List.mem_map_of_mem member)
  · intro cpu offline
    exact stores_other m _ _ cpu (by rw [cpus, ← aligned.labels]; exact offline)
  · intro cpu figures printed
    obtain ⟨pair, member, shown⟩ := reports_member m _ s.prev s.prev distinct (fun _ _ => rfl) _ printed
    obtain ⟨line, online, rfl⟩ := List.mem_map.mp (labelled ▸ member)
    obtain ⟨now, reported, same⟩ := List.mem_map.mp shown
    obtain ⟨rfl, rfl⟩ := Message.usage.inj same
    exact ⟨line, online, rfl, by simpa using reported⟩

section Needed

variable [Nontrivial S] (numCpus : Nat) (text : Text) (few : text.cpus.length ≤ numCpus)
  (attributes : Attributes m numCpus text)

include attributes

theorem attributes_run : ∃ contents prev result, contents.length = cpuInfoBufsize ∧
    m.parse numCpus (buffer text contents) prev = .ok result := by
  obtain ⟨one, _, _⟩ := exists_pair_ne S
  have size : (List.replicate cpuInfoBufsize (0 : UInt8)).length = cpuInfoBufsize := List.length_replicate
  obtain ⟨messages, next, ran, _⟩ := attributes _ ⟨fun _ => one, 0, 0⟩ size
  rw [text_reads] at ran
  obtain ⟨result, parsed, _⟩ := (except_map_ok _ _ _).mp ran
  exact ⟨_, _, result, size, parsed⟩

include few

theorem attributes_fits : text.header.length ≤ cpuInfoBufsize := by
  by_contra long
  obtain ⟨contents, prev, result, size, parsed⟩ := attributes_run m numCpus text attributes
  have fills : cpuInfoBufsize ≤ text.bytes.length := by
    rw [Text.bytes, List.length_append]
    omega
  rw [buffer_full text _ size fills, Text.bytes, List.take_append_of_le_length (Nat.le_of_not_le long),
    parse_header_cut m numCpus text few _ (Nat.lt_of_not_le long)] at parsed
  cases parsed

theorem attributes_lookahead (more : text.cpus.length < numCpus) :
    ¬ text.rest.take (cpuInfoBufsize - text.header.length) <+: cpu := by
  intro cut
  have fits := attributes_fits m numCpus text few attributes
  obtain ⟨room, whole⟩ := Nat.exists_eq_add_of_le fits
  rw [whole, Nat.add_sub_cancel_left] at cut
  have long : room < text.rest.length := by
    by_contra short
    obtain ⟨line, after, split, _, _⟩ := rest_begins text
    rw [List.take_of_length_le (Nat.le_of_not_lt short), split] at cut
    exact no_newline_in_cpu (cut.subset (by simp))
  obtain ⟨contents, prev, result, size, parsed⟩ := attributes_run m numCpus text attributes
  have fills : cpuInfoBufsize ≤ text.bytes.length := by
    rw [Text.bytes, List.length_append]
    omega
  have stays : List.range' text.cpus.length (numCpus - text.cpus.length) =
      text.cpus.length :: List.range' (text.cpus.length + 1) (numCpus - text.cpus.length - 1) := by
    rw [← List.range'_succ]
    congr 1
    omega
  rw [buffer_full text _ size fills, Text.bytes, whole, List.take_length_add_append, parse_header m numCpus text few, stays,
    Monitor.cpu_loop_cons, cpu_cut_scan _ (.label _ cut)] at parsed
  cases parsed

theorem attributes_labels : text.online = List.range text.cpus.length := by
  obtain ⟨one, other, different⟩ := exists_pair_ne S
  have fits := attributes_fits m numCpus text few attributes
  have lookahead := attributes_lookahead m numCpus text few attributes
  have size : (List.replicate cpuInfoBufsize (0 : UInt8)).length = cpuInfoBufsize := List.length_replicate
  have distinct : ((pairs text).map Prod.fst).Nodup := pairs_cpus text ▸ List.nodup_range
  have all : List.range text.cpus.length ⊆ text.online := by
    intro cpu member
    by_contra offline
    obtain ⟨⟨_, line⟩, here, rfl⟩ := List.mem_map.mp (pairs_cpus text ▸ member)
    -- Whatever an offline CPU had, it would have to keep; but it gets what its line shows.
    have kept : ∀ before : S, m.sample line.stat = before := by
      intro before
      obtain ⟨messages, next, ran, attributed⟩ := attributes _ ⟨fun _ => before, 0, 0⟩ size
      rw [text_run m numCpus text few fits lookahead] at ran
      obtain ⟨rfl, rfl⟩ := Prod.mk.inj (Except.ok.inj ran)
      exact (stores_member m _ _ distinct _ line here).symm.trans (attributed.offline _ offline)
    exact different ((kept one).symm.trans (kept other))
  have same : List.Perm (List.range text.cpus.length) text.online :=
    (List.nodup_range.subperm all).perm_of_length_le (by rw [Text.online, List.length_map, List.length_range])
  exact (same.eq_of_pairwise (fun a b _ _ less more => absurd (Nat.lt_trans less more) (Nat.lt_irrefl a))
    List.pairwise_lt_range text.increasing).symm

end Needed

theorem online_few (numCpus : Nat) (text : Text) (below : ∀ cpu ∈ text.online, cpu < numCpus) :
    text.cpus.length ≤ numCpus := by
  have distinct : text.online.Nodup := text.increasing.imp Nat.ne_of_lt
  have inside := (distinct.subperm fun cpu member => List.mem_range.mpr (below cpu member)).length_le
  rwa [Text.online, List.length_map, List.length_range] at inside

theorem attributes_iff [Nontrivial S] (numCpus : Nat) (text : Text) (below : ∀ cpu ∈ text.online, cpu < numCpus) :
    Attributes m numCpus text ↔ Aligned numCpus text := by
  have few := online_few numCpus text below
  constructor
  · intro attributes
    exact ⟨attributes_labels m numCpus text few attributes, attributes_fits m numCpus text few attributes,
      attributes_lookahead m numCpus text few attributes⟩
  · exact aligned_attributes m numCpus text few

instance : Nontrivial PerCpuUsage.Sample := ⟨⟨0, 0⟩, ⟨1, 0⟩, by decide⟩

instance : Nontrivial Softwdt.LoadSoftwdt.Sample := ⟨⟨0, 0, 0⟩, ⟨1, 0, 0⟩, by decide⟩

theorem lines_attributed_iff (numCpus : Nat) (text : Text) (below : ∀ cpu ∈ text.online, cpu < numCpus) :
    (Attributes PerCpuUsage.monitor numCpus text ↔ Aligned numCpus text) ∧
      (Attributes Softwdt.LoadSoftwdt.monitor numCpus text ↔ Aligned numCpus text) :=
  ⟨attributes_iff PerCpuUsage.monitor numCpus text below, attributes_iff Softwdt.LoadSoftwdt.monitor numCpus text below⟩

def digit (d : Fin 10) : Numeral := ⟨[d], by simp⟩

def sameFigures (label d : Fin 10) : CpuLine :=
  ⟨digit label, ⟨digit d, digit d, digit d, digit d, digit d, digit d, digit d, digit d, digit d, digit d⟩⟩

-- "cpu ", the lines of two CPUs, and "intr".
def twoOnline (second : Fin 10) (later : 0 < second) : Text where
  aggregate := [99, 112, 117, 32]
  cpus := [sameFigures 0 1, sameFigures second 2]
  further := [[105, 110, 116, 114]]
  aggregate_line := by decide +kernel
  increasing := by simpa [sameFigures, digit, CpuLine.cpu, Numeral.value] using later
  some_further := by decide
  further_lines := by decide +kernel

theorem two_cpus_attributed : Attributes PerCpuUsage.monitor 2 (twoOnline 1 (by decide)) ∧
    Attributes Softwdt.LoadSoftwdt.monitor 2 (twoOnline 1 (by decide)) := by
  have aligned : Aligned 2 (twoOnline 1 (by decide)) := ⟨by decide, by decide, by decide⟩
  have both := lines_attributed_iff 2 (twoOnline 1 (by decide)) (by decide)
  exact ⟨both.1.mpr aligned, both.2.mpr aligned⟩

-- CPU 1 of three is offline: what CPU 2's line shows is kept and printed as CPU 1's.
theorem offline_cpu_shifts_lines : ¬ ∀ numCpus text, (∀ cpu ∈ text.online, cpu < numCpus) →
    Attributes PerCpuUsage.monitor numCpus text ∧ Attributes Softwdt.LoadSoftwdt.monitor numCpus text := by
  intro claimed
  have below : ∀ cpu ∈ (twoOnline 2 (by decide)).online, cpu < 3 := by decide
  have both := claimed 3 (twoOnline 2 (by decide)) below
  have labels := (attributes_iff PerCpuUsage.monitor 3 _ below).mp both.1
  exact absurd labels.labels (by decide)

end LinuxModule.ProcStat

import LinuxModule.Top.State

set_option autoImplicit false

namespace LinuxModule.Top

open Stdio Decimal UserCopy
open Scanf (newline isdigit)

-- /proc/<pid>/stat as the kernel writes it. Any byte but a newline or a NUL can be part of
-- comm, parentheses and spaces too; `more` is what comes after rss.
structure StatText where
  pid : Nat
  comm : List UInt8
  state : UInt8
  ids : List Int
  utime : UInt64
  stime : UInt64
  times : List Int
  vsize : UInt64
  rss : Int
  more : List UInt8
  oneLine : newline ∉ comm ∧ 0 ∉ comm
  letter : isspace state = false ∧ state ≠ 0 ∧ state ≠ parenClose
  tenIds : ids.length = 10
  sevenTimes : times.length = 7
  rssFits : -2 ^ 63 ≤ rss ∧ rss < 2 ^ 63
  numbersFollow : Stops more ∧ parenClose ∉ more

namespace StatText

variable (line : StatText)

def fields : List UInt8 :=
  32 :: line.state :: (spaced line.ids ++ (32 :: (decimal line.utime.toNat ++ (32 :: (decimal line.stime.toNat ++
    (spaced line.times ++ (32 :: (decimal line.vsize.toNat ++ (32 :: signed line.rss)))))))))

-- The part that is read: everything through rss.
def head : List UInt8 := decimal line.pid ++ [32] ++ parenOpen :: (line.comm ++ parenClose :: line.fields)

def text : List UInt8 := line.head ++ line.more

-- What is read of it.
def parsed (proc : ProcInfo) : ProcInfo :=
  { proc with
    tname := line.comm.take (threadNameLen - 1)
    state := line.state
    utime := line.utime
    stime := line.stime
    vss := cLong line.vsize.toNat
    rss := line.rss }

end StatText

theorem signed_bytes (z : Int) (b : UInt8) (inside : b ∈ signed z) : isdigit b = true ∨ b = minus := by
  cases z with
  | ofNat n => exact .inl (decimal_digits n b inside)
  | negSucc n =>
      rcases List.mem_cons.mp inside with rfl | digit
      · exact .inr rfl
      · exact .inl (decimal_digits (n + 1) b digit)

theorem other_bytes (b c : UInt8) (number : isdigit b = true ∨ b = minus) (other : c < 45) : b ≠ c := by
  rintro rfl
  rcases number with digit | rfl
  · simp only [isdigit, Bool.and_eq_true, decide_eq_true_eq, UInt8.le_iff_toNat_le, UInt8.lt_iff_toNat_lt] at digit other
    have low : 48 ≤ b.toNat := digit.1
    have high : b.toNat < 45 := other
    omega
  · exact absurd other (by decide)

theorem no_byte_in_number (z : Int) (c : UInt8) (other : c < 45) : c ∉ signed z := fun inside =>
  other_bytes c c (signed_bytes z c inside) other rfl

theorem no_byte_in_spaced (numbers : List Int) (c : UInt8) (other : c < 45) (dark : c ≠ 32) : c ∉ spaced numbers := by
  intro inside
  obtain ⟨z, _, here⟩ := List.mem_flatMap.mp inside
  rcases List.mem_cons.mp here with space | number
  · exact dark space
  · exact no_byte_in_number z c other number

theorem no_byte_in_fields (line : StatText) (c : UInt8) (other : c < 45) (dark : c ≠ 32) (state : c ≠ line.state) :
    c ∉ line.fields := by
  have decimals := fun n : Nat => no_byte_in_number (.ofNat n) c other
  simp only [signed] at decimals
  simp only [StatText.fields, List.mem_cons, List.mem_append, not_or]
  exact ⟨dark, state, no_byte_in_spaced _ c other dark, dark, decimals _, dark, decimals _,
    no_byte_in_spaced _ c other dark, dark, decimals _, dark, no_byte_in_number _ c other⟩

theorem drop_behind (first rest : List UInt8) (c : UInt8) : (first ++ c :: rest).drop (first.length + 1) = rest := by
  simp [List.drop_append]

-- The first '(' is the one behind the pid, and the last ')' the one in front of the state:
-- those of the name are between them.
theorem parse_stat_splits (before comm fields : List UInt8) (proc : ProcInfo) (opens : parenOpen ∉ before)
    (closes : parenClose ∉ fields) (name : 0 ∉ comm) (ends : 0 ∉ fields) :
    parseStat (before ++ parenOpen :: (comm ++ parenClose :: fields)) proc =
      sscanf statFormat fields { proc with tname := comm.take (threadNameLen - 1) } := by
  have split : before ++ parenOpen :: (comm ++ parenClose :: fields) = (before ++ parenOpen :: comm) ++ parenClose :: fields := by
    simp
  have first := strchr_first before (comm ++ parenClose :: fields) parenOpen opens
  have last := strrchr_last (before ++ parenOpen :: comm) fields parenClose closes
  rw [← split] at last
  have cut : ((before ++ parenOpen :: (comm ++ parenClose :: fields)).set before.length 0).set
      (before ++ parenOpen :: comm).length 0 = before ++ 0 :: (comm ++ 0 :: fields) := by
    rw [List.set_append_right _ _ (Nat.le_refl _), Nat.sub_self, List.set_cons_zero, List.set_append_right _ _ (by simp)]
    have inside : (before ++ parenOpen :: comm).length - before.length = comm.length + 1 := by simp
    rw [inside, List.set_cons_succ, List.set_append_right _ _ (Nat.le_refl _), Nat.sub_self, List.set_cons_zero]
  have named := drop_behind before (comm ++ 0 :: fields) 0
  have behind : (before ++ 0 :: (comm ++ 0 :: fields)).drop ((before ++ parenOpen :: comm).length + 1) = fields := by
    have length : (before ++ parenOpen :: comm).length = (before ++ (0 : UInt8) :: comm).length := by simp
    have again : before ++ 0 :: (comm ++ 0 :: fields) = (before ++ 0 :: comm) ++ 0 :: fields := by simp
    rw [length, again]
    exact drop_behind _ fields 0
  have comm_cut : cstr (comm ++ 0 :: fields) = comm := by
    rw [cstr, List.takeWhile_append_of_pos fun b inside => by simpa using fun nul : b = 0 => name (nul ▸ inside)]
    simp
  simp only [parseStat, first, last, cut, named, behind, comm_cut, cstr_whole fields ends]

theorem scan_fields (line : StatText) (more : List UInt8) (stops : Stops more) (proc : ProcInfo) :
    sscanf statFormat (line.fields ++ more) proc =
      { proc with
        state := line.state
        utime := line.utime
        stime := line.stime
        vss := cLong line.vsize.toNat
        rss := line.rss } := by
  have spaces : ∀ rest : List UInt8, Stops (32 :: rest) := by
    intro rest b first
    obtain rfl := Option.some.inj first
    rfl
  have text : line.fields ++ more = 32 :: line.state :: (spaced line.ids ++ (32 :: (decimal line.utime.toNat ++
      (32 :: (decimal line.stime.toNat ++ (spaced line.times ++ (32 :: (decimal line.vsize.toNat ++
        (32 :: (signed line.rss ++ more)))))))))) := by
    simp [StatText.fields]
  have format : statFormat = .space :: .char (fun b proc => { proc with state := b }) :: (skips line.ids.length ++
      (.space :: .unsigned (fun n proc => { proc with utime := n }) ::
        .space :: .unsigned (fun n proc => { proc with stime := n }) :: (skips line.times.length ++
          [.space, .unsigned fun n proc => { proc with vss := cLong n.toNat },
            .space, .long fun z proc => { proc with rss := z }]))) := by
    rw [line.tenIds, line.sevenTimes]
    rfl
  rw [text, format, scan_space _ _ _ _ line.letter.1, sscanf_char, scan_skips _ _ _ _ (spaces _),
    scan_unsigned _ _ _ _ _ (spaces _), scan_unsigned _ _ _ _ _ (stops_spaced _ _ (spaces _)),
    scan_skips _ _ _ _ (spaces _), scan_unsigned _ _ _ _ _ (spaces _),
    scan_long _ _ _ _ line.rssFits.1 line.rssFits.2 _ stops, sscanf_nil]

-- Any such line is read back, whatever is in the name, if it fits into the buffer as far
-- as rss.
theorem read_stat_line (line : StatText) (fits : line.head.length < maxLine) (stack : List UInt8) (proc : ProcInfo) :
    readStat ⟨some line.text, stack⟩ proc = .ok (line.parsed proc) := by
  have outside : ∀ c : UInt8, c < 45 → c ≠ 32 → c ≠ parenOpen → c ≠ parenClose → c ≠ line.state → c ∉ line.comm →
      c ∉ line.head := by
    intro c other dark opens closes state name
    simp only [StatText.head, List.mem_append, List.mem_cons, List.not_mem_nil, or_false, not_or]
    exact ⟨⟨no_byte_in_number (.ofNat line.pid) c other, dark⟩, opens, name, closes, no_byte_in_fields line c other dark state⟩
  have spaceless : newline ≠ line.state := fun same => absurd line.letter.1 (by rw [← same]; decide)
  have oneLine : newline ∉ line.head :=
    outside newline (by decide) (by decide) (by decide) (by decide) spaceless line.oneLine.1
  have unended : 0 ∉ line.head :=
    outside 0 (by decide) (by decide) (by decide) (by decide) (Ne.symm line.letter.2.1) line.oneLine.2
  obtain ⟨more, got, behind⟩ := fgets_prefix maxLine line.head line.more oneLine (by simp [StatText.head]) fits
  have whole : cstr (line.head ++ more) = line.head ++ cstr more := by
    rw [cstr, List.takeWhile_append_of_pos fun b inside => by simpa using fun nul : b = 0 => unended (nul ▸ inside)]
    rfl
  have shorter : cstr more <+: line.more := (List.takeWhile_prefix _).trans behind
  have stops : Stops (cstr more) := by
    intro b first
    obtain ⟨rest, split⟩ := shorter
    refine line.numbersFollow.1 b ?_
    rw [← split, List.head?_append, first]
    rfl
  have closes : parenClose ∉ line.fields ++ cstr more := by
    rw [List.mem_append, not_or]
    exact ⟨no_byte_in_fields line _ (by decide) (by decide) (Ne.symm line.letter.2.2),
      fun inside => line.numbersFollow.2 (shorter.subset inside)⟩
  have ends : 0 ∉ line.fields ++ cstr more := by
    rw [List.mem_append, not_or]
    exact ⟨no_byte_in_fields line _ (by decide) (by decide) (Ne.symm line.letter.2.1), cstr_free more⟩
  have opens : parenOpen ∉ decimal line.pid ++ [32] := by
    rw [List.mem_append, not_or]
    exact ⟨no_byte_in_number (.ofNat line.pid) _ (by decide), by decide⟩
  have split : line.head ++ cstr more =
      (decimal line.pid ++ [32]) ++ parenOpen :: (line.comm ++ parenClose :: (line.fields ++ cstr more)) := by
    simp [StatText.head]
  have read : statLine ⟨some line.text, stack⟩ line.text = .ok (line.head ++ cstr more) := by
    rw [statLine, StatText.text, got]
    simp only [whole]
  simp only [readStat, read, except_ok_bind]
  rw [split, parse_stat_splits _ _ _ proc opens closes line.oneLine.2 ends, scan_fields line _ stops]
  rfl

-- A process whose name looks like the end of the name.
def sampleLine (utime : UInt64) : StatText where
  pid := 7
  comm := [41, 32, 82, 40]
  state := 83
  ids := List.replicate 10 (-1)
  utime := utime
  stime := 3
  times := List.replicate 7 0
  vsize := 4096
  rss := 2
  more := [32, 48, 10]
  oneLine := by decide
  letter := by decide
  tenIds := rfl
  sevenTimes := rfl
  rssFits := by decide
  numbersFollow := ⟨fun b first => by obtain rfl := Option.some.inj first; decide, by decide⟩

theorem read_stat_line_ex : readStat ⟨some (sampleLine 5).text, []⟩ ⟨none, 0, 0, 0, 0, [], [], 0, 0, 0, 0, 0, 0, 0, 0, 0, []⟩ =
    .ok ((sampleLine 5).parsed ⟨none, 0, 0, 0, 0, [], [], 0, 0, 0, 0, 0, 0, 0, 0, 0, []⟩) :=
  read_stat_line (sampleLine 5) (by decide +kernel) [] _

end LinuxModule.Top

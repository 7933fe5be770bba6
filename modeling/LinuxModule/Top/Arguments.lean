import LinuxModule.Top.Table

set_option autoImplicit false

namespace LinuxModule.Top

open Stdio

abbrev Arg : Type := List UInt8

-- The options that take an argument.
inductive Flag where
  | m
  | n
  | d
  | s
deriving DecidableEq, Repr

def Flag.arg : Flag → Arg
  | .m => [45, 109]
  | .n => [45, 110]
  | .d => [45, 100]
  | .s => [45, 115]

def dashT : Arg := [45, 116]
def dashH : Arg := [45, 104]

def Column.arg : Column → Arg
  | .cpu => [99, 112, 117]
  | .vss => [118, 115, 115]
  | .rss => [114, 115, 115]
  | .thr => [116, 104, 114]

-- The ways main exits with EXIT_FAILURE before it has read anything.
inductive Refusal where
  | noArgument (flag : Flag)
  | badColumn (arg : Arg)
  | badArgument (arg : Arg)
  | threadsPerThread
deriving DecidableEq

-- The format written to stderr with its %s, and whether the usage follows.
def Refusal.message : Refusal → String × List Arg × Bool
  | .noArgument .m => ("Option -m expects an argument.\n", [], true)
  | .noArgument .n => ("Option -n expects an argument.\n", [], true)
  | .noArgument .d => ("Option -d expects an argument.\n", [], true)
  | .noArgument .s => ("Option -s expects an argument.\n", [], true)
  | .badColumn arg => ("Invalid argument \"%s\" for option -s.\n", [arg], false)
  | .badArgument arg => ("Invalid argument \"%s\".\n", [arg], true)
  | .threadsPerThread => ("Sorting by threads per thread makes no sense!\n", [], false)

inductive Outcome where
  | runs (opts : Options)
  | helped
  | refused (refusal : Refusal)
deriving DecidableEq

def defaults : Options := ⟨0, 3, -1, .cpu, false⟩

def parseArgs : Options → List Arg → Outcome
  | opts, [] => if opts.threads = true ∧ opts.column = .thr then .refused .threadsPerThread else .runs opts
  | opts, arg :: rest =>
      if arg = Flag.m.arg then
        match rest with
        | [] => .refused (.noArgument .m)
        | value :: rest => parseArgs { opts with maxProcs := atoi value } rest
      else if arg = Flag.n.arg then
        match rest with
        | [] => .refused (.noArgument .n)
        | value :: rest => parseArgs { opts with iterations := atoi value } rest
      else if arg = Flag.d.arg then
        match rest with
        | [] => .refused (.noArgument .d)
        | value :: rest => parseArgs { opts with delay := atoi value } rest
      else if arg = Flag.s.arg then
        match rest with
        | [] => .refused (.noArgument .s)
        | value :: rest =>
            if value = Column.cpu.arg then parseArgs { opts with column := .cpu } rest
            else if value = Column.vss.arg then parseArgs { opts with column := .vss } rest
            else if value = Column.rss.arg then parseArgs { opts with column := .rss } rest
            else if value = Column.thr.arg then parseArgs { opts with column := .thr } rest
            else .refused (.badColumn value)
      else if arg = dashT then parseArgs { opts with threads := true } rest
      else if arg = dashH then .helped
      else .refused (.badArgument arg)

-- One option with its argument, as the usage describes them.
inductive Opt where
  | m (value : Arg)
  | n (value : Arg)
  | d (value : Arg)
  | s (column : Column)
  | t
deriving DecidableEq

def Opt.render : Opt → List Arg
  | .m value => [Flag.m.arg, value]
  | .n value => [Flag.n.arg, value]
  | .d value => [Flag.d.arg, value]
  | .s column => [Flag.s.arg, column.arg]
  | .t => [dashT]

def Opt.apply (opts : Options) : Opt → Options
  | .m value => { opts with maxProcs := atoi value }
  | .n value => { opts with iterations := atoi value }
  | .d value => { opts with delay := atoi value }
  | .s column => { opts with column := column }
  | .t => { opts with threads := true }

-- What can stand behind the options that are in order.
inductive Ending (opts : Options) : List Arg → Outcome → Prop where
  | complete (sensible : ¬ (opts.threads = true ∧ opts.column = .thr)) : Ending opts [] (.runs opts)
  | senseless (threads : opts.threads = true) (column : opts.column = .thr) : Ending opts [] (.refused .threadsPerThread)
  | help (rest : List Arg) : Ending opts (dashH :: rest) .helped
  | cut (flag : Flag) : Ending opts [flag.arg] (.refused (.noArgument flag))
  | column (arg : Arg) (rest : List Arg) (other : ∀ column : Column, arg ≠ column.arg) :
      Ending opts (Flag.s.arg :: arg :: rest) (.refused (.badColumn arg))
  | unknown (arg : Arg) (rest : List Arg) (other : (∀ flag : Flag, arg ≠ flag.arg) ∧ arg ≠ dashT ∧ arg ≠ dashH) :
      Ending opts (arg :: rest) (.refused (.badArgument arg))

theorem parse_option (opts : Options) (given : Opt) (rest : List Arg) :
    parseArgs opts (given.render ++ rest) = parseArgs (given.apply opts) rest := by
  cases given with
  | s column => cases column <;> rfl
  | t => cases rest <;> rfl
  | _ => rfl

theorem parse_options (opts : Options) (given : List Opt) (rest : List Arg) :
    parseArgs opts (given.flatMap Opt.render ++ rest) = parseArgs (given.foldl Opt.apply opts) rest := by
  induction given generalizing opts with
  | nil => rfl
  | cons first given ih => rw [List.flatMap_cons, List.append_assoc, parse_option, ih, List.foldl_cons]

theorem parse_ending (opts : Options) (tail : List Arg) (outcome : Outcome) (ending : Ending opts tail outcome) :
    parseArgs opts tail = outcome := by
  cases ending with
  | complete sensible => rw [parseArgs, if_neg sensible]
  | senseless threads column => rw [parseArgs, if_pos ⟨threads, column⟩]
  | help rest => cases rest <;> rfl
  | cut flag => cases flag <;> rfl
  | column arg rest other =>
      rw [parseArgs, if_neg (by decide), if_neg (by decide), if_neg (by decide), if_pos rfl]
      simp only [other .cpu, other .vss, other .rss, other .thr, if_false]
  | unknown arg rest other =>
      obtain ⟨flags, threads, help⟩ := other
      cases rest <;> rw [parseArgs, if_neg (flags .m), if_neg (flags .n), if_neg (flags .d), if_neg (flags .s), if_neg threads,
        if_neg help]

theorem column_or_not (arg : Arg) : (∃ column : Column, arg = column.arg) ∨ ∀ column : Column, arg ≠ column.arg := by
  by_cases known : ∃ column : Column, arg = column.arg
  · exact .inl known
  · exact .inr (not_exists.mp known)

def Split (opts : Options) (args : List Arg) (outcome : Outcome) : Prop :=
  ∃ (given : List Opt) (tail : List Arg), args = given.flatMap Opt.render ++ tail ∧ Ending (given.foldl Opt.apply opts) tail outcome

theorem split_option (opts : Options) (given : Opt) (rest : List Arg) (outcome : Outcome)
    (split : Split (given.apply opts) rest outcome) : Split opts (given.render ++ rest) outcome := by
  obtain ⟨others, tail, rfl, ending⟩ := split
  exact ⟨given :: others, tail, by simp, ending⟩

theorem split_ending (opts : Options) (args : List Arg) (outcome : Outcome) (ending : Ending opts args outcome) :
    Split opts args outcome := ⟨[], args, rfl, ending⟩

theorem render_pos (given : Opt) : 0 < given.render.length := by cases given <;> exact Nat.zero_lt_succ _

theorem args_split (opts : Options) (args : List Arg) : ∃ outcome, Split opts args outcome := by
  induction length : args.length using Nat.strongRecOn generalizing opts args with
  | ind size ih =>
      have onward : ∀ (given : Opt) (rest : List Arg), args = given.render ++ rest → ∃ outcome, Split opts args outcome := by
        intro given rest whole
        have shorter : rest.length < size := by
          have taken := render_pos given
          rw [← length, whole, List.length_append]
          omega
        obtain ⟨outcome, split⟩ := ih rest.length shorter (given.apply opts) rest rfl
        exact ⟨outcome, whole ▸ split_option opts given rest outcome split⟩
      cases args with
      | nil =>
          by_cases senseless : opts.threads = true ∧ opts.column = .thr
          · exact ⟨_, split_ending _ _ _ (.senseless senseless.1 senseless.2)⟩
          · exact ⟨_, split_ending _ _ _ (.complete senseless)⟩
      | cons arg rest =>
          by_cases flagged : ∃ flag : Flag, arg = flag.arg
          · obtain ⟨flag, rfl⟩ := flagged
            cases rest with
            | nil => exact ⟨_, split_ending _ _ _ (.cut flag)⟩
            | cons value rest =>
                cases flag with
                | m => exact onward (.m value) rest rfl
                | n => exact onward (.n value) rest rfl
                | d => exact onward (.d value) rest rfl
                | s =>
                    rcases column_or_not value with ⟨column, rfl⟩ | other
                    · exact onward (.s column) rest rfl
                    · exact ⟨_, split_ending _ _ _ (.column value rest other)⟩
          · by_cases threads : arg = dashT
            · exact onward .t rest (threads ▸ rfl)
            · by_cases help : arg = dashH
              · exact ⟨.helped, split_ending _ _ _ (by rw [help]; exact .help rest)⟩
              · exact ⟨_, split_ending _ _ _ (.unknown arg rest ⟨not_exists.mp flagged, threads, help⟩)⟩

-- The whole grammar of the command line, with the outcome of each command line: the
-- options before the ending count in their order.
theorem parse_args_iff (opts : Options) (args : List Arg) (outcome : Outcome) :
    parseArgs opts args = outcome ↔ Split opts args outcome := by
  have sound : ∀ outcome, Split opts args outcome → parseArgs opts args = outcome := by
    rintro outcome ⟨given, tail, rfl, ending⟩
    rw [parse_options]
    exact parse_ending _ tail outcome ending
  refine ⟨?_, sound outcome⟩
  rintro rfl
  obtain ⟨outcome, split⟩ := args_split opts args
  rw [sound outcome split]
  exact split

-- top -s rss -t
example : parseArgs defaults [Flag.s.arg, Column.rss.arg, dashT] = .runs ⟨0, 3, -1, .rss, true⟩ := by decide

end LinuxModule.Top

import Detour.Command.Basic

/-!
# Command lines

A command line names a command, with options in any order around the words that belong to it. An option
is written `--name value` or `--name=value`; the configuration may also be given by the letter `c` after
one hyphen. Behind `--` everything is a word. An option may stand only once before the command and once
behind it, and what stands behind counts.
-/

namespace Detour

/-- One argument, with its value if it is an option that has one. -/
inductive Argument where
  /-- an option with a value -/
  | valued (name value : Text)
  /-- an option without a value -/
  | bare (name : Text)
  /-- a word -/
  | word (s : Text)
deriving Repr, DecidableEq

/-- The options that are known in some place. -/
structure Options where
  /-- the names of those with a value -/
  valued : List Text
  /-- the names of those without a value -/
  bare : List Text
deriving Repr, DecidableEq

/-- What was given on a command line. -/
structure Given where
  /-- the options with their values -/
  valued : List (Text × Text)
  /-- the options without values -/
  bare : List Text
  /-- the words -/
  words : List Text
deriving Repr, DecidableEq

namespace Argument

/-- The name of the option for the configuration. -/
def config : Text := "config".toList

/-- The name of the option that asks for help. -/
def help : Text := "help".toList

/-- Whether an argument is written like an option, so that it is no value. -/
def isOption : Text → Bool
  | '-' :: _ :: _ => true
  | _ => false

/-- An option whose value is the next argument, and the arguments behind it. -/
def withNext (name : Text) : List Text → Option (Argument × List Text)
  | value :: rest => if isOption value then none else some (valued name value, rest)
  | [] => none

/-- The first argument and those behind it; `none` if it is no known option, or if its value is missing
or not wanted. -/
def next? (o : Options) : List Text → Option (Argument × List Text)
  | [] => none
  | arg :: rest =>
    match arg with
    | '-' :: '-' :: body =>
      let name := body.takeWhile (· != '=')
      match body.drop name.length with
      | _ :: value => if o.valued.contains name then some (valued name value, rest) else none
      | [] =>
        if o.bare.contains name then some (bare name, rest)
        else if o.valued.contains name then withNext name rest
        else none
    | ['-', 'c'] => withNext config rest
    | '-' :: 'c' :: '=' :: value => some (valued config value, rest)
    | '-' :: 'c' :: value => some (valued config value, rest)
    | '-' :: 'h' :: _ => some (bare help, rest)
    | '-' :: _ :: _ => none
    | s => some (word s, rest)

/-- A value takes the argument that it stands in. -/
theorem length_of_withNext {name : Text} {args rest : List Text} {a : Argument}
    (h : withNext name args = some (a, rest)) : rest.length < args.length := by
  cases args with
  | nil => simp [withNext] at h
  | cons value others =>
    simp only [withNext] at h
    split at h
    · simp at h
    · simp only [Option.some.injEq, Prod.mk.injEq] at h
      simp [← h.2]

/-- Reading an argument leaves fewer of them. -/
theorem length_of_next? {o : Options} {args rest : List Text} {a : Argument}
    (h : next? o args = some (a, rest)) : rest.length < args.length := by
  cases args with
  | nil => simp [next?] at h
  | cons arg others =>
    have same {b : Argument} (e : some (b, others) = some (a, rest)) :
        rest.length < (arg :: others).length := by
      simp only [Option.some.injEq, Prod.mk.injEq] at e
      simp [← e.2]
    have shorter {name : Text} (e : withNext name others = some (a, rest)) :
        rest.length < (arg :: others).length :=
      Nat.lt_succ_of_lt (length_of_withNext e)
    simp only [next?] at h
    split at h
    · split at h
      · split at h
        · exact same h
        · simp at h
      · split at h
        · exact same h
        · split at h
          · exact shorter h
          · simp at h
    · exact shorter h
    · exact same h
    · exact same h
    · exact same h
    · simp at h
    · exact same h

end Argument

namespace Given

/-- Nothing given. -/
def empty : Given := ⟨[], [], []⟩

/-- What is given with one more argument, if it may stand there: at most so many words, every option
only once, and a path for the configuration. -/
def add (g : Given) (most : Nat) : Argument → Except Stop Given
  | .bare name =>
    if name = Argument.help then .error .help
    else if g.bare.contains name then .error .misuse
    else .ok { g with bare := name :: g.bare }
  | .valued name value =>
    if (g.valued.lookup name).isSome || (name = Argument.config && value.isEmpty) then
      .error .misuse
    else .ok { g with valued := (name, value) :: g.valued }
  | .word s => if g.words.length < most then .ok { g with words := g.words ++ [s] } else .error .misuse

/-- What is given by some arguments behind a command. -/
def gather (o : Options) (most : Nat) (g : Given) (args : List Text) : Except Stop Given :=
  match args with
  | [] => .ok g
  | arg :: rest =>
    if arg = ['-', '-'] then
      if g.words.length + rest.length ≤ most then .ok { g with words := g.words ++ rest }
      else .error .misuse
    else
      match h : Argument.next? o (arg :: rest) with
      | none => .error .misuse
      | some (a, others) =>
        have : others.length < (arg :: rest).length := Argument.length_of_next? h
        match g.add most a with
        | .error stop => .error stop
        | .ok g => gather o most g others
termination_by args.length
decreasing_by exact this

end Given

namespace Invocation

/-- The path of the configuration if none is given. -/
def usualConfig : Text := "jumplinks.toml".toList

/-- The options that may stand before a command. -/
def outerOptions : Options := ⟨[Argument.config], [Argument.help]⟩

/-- The options that may stand behind the command to resolve a request. -/
def resolveOptions : Options :=
  ⟨[Argument.config, "referrer".toList, "user-agent".toList], [Argument.help, "diagnose".toList]⟩

/-- The names of the commands. -/
def commands : List Text := ["resolve".toList, "compile".toList, "hits".toList, "help".toList]

/-- The command with a name and what is given behind it. -/
def command? (name : Text) (g : Given) : Option Command :=
  match g.words with
  | [word] =>
    if name = "resolve".toList then
      some (.resolve ⟨word, g.valued.lookup "referrer".toList, g.valued.lookup "user-agent".toList⟩
        (g.bare.contains "diagnose".toList))
    else if name = "compile".toList then some (.compile word)
    else none
  | [] => if name = "hits".toList then some .hits else none
  | _ => none

/-- The command line with a command of some name, what was given before it and what stands behind it. -/
def ofCommand (config : Option Text) (name : Text) (args : List Text) : Except Stop Invocation := do
  if name = "help".toList then
    match args with
    | [] => throw .help
    | [topic] => throw (if commands.contains topic then .help else .misuse)
    | _ => throw .misuse
  let options := if name = "resolve".toList then resolveOptions else outerOptions
  let g ← Given.empty.gather options (if name = "hits".toList then 0 else 1) args
  match command? name g with
  | none => throw .misuse
  | some command =>
    return ⟨(g.valued.lookup Argument.config).getD (config.getD usualConfig), command⟩

/-- What a command line asks for, given what stands before it. -/
def readFrom (g : Given) (args : List Text) : Except Stop Invocation :=
  match h : Argument.next? outerOptions args with
  | none => .error .misuse
  | some (.word name, rest) =>
    if commands.contains name then ofCommand (g.valued.lookup Argument.config) name rest
    else .error .misuse
  | some (a, rest) =>
    have : rest.length < args.length := Argument.length_of_next? h
    match g.add 0 a with
    | .error stop => .error stop
    | .ok g => readFrom g rest
termination_by args.length

/-- What a command line asks for. -/
def read (args : List Text) : Except Stop Invocation := readFrom Given.empty args

end Invocation

end Detour

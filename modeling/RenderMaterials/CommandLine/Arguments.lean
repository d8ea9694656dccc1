/-!
# Command line arguments

Options stand before or behind the name of a command, and a command takes one root file.  An option
is given once on either side; of two the one behind the name counts.  Arguments are looked at in
order, and the first that asks for help or is wrong decides.
-/

namespace RenderMaterials.CommandLine

/-- What can be done with a root file. -/
inductive Action where
  | validate | build | watch
  deriving DecidableEq, Repr

namespace Action

/-- The name of an action. -/
def name : Action → String
  | validate => "validate"
  | build    => "build"
  | watch    => "watch"

/-- The action of a name. -/
def ofName? (s : String) : Option Action := [validate, build, watch].find? (·.name = s)

end Action

/-- The options with a value. -/
inductive Setting where
  /-- The directory that all files are below. -/
  | assets
  /-- The configuration file. -/
  | config
  /-- The directory of shaders. -/
  | shaderRoot
  deriving DecidableEq, Repr

namespace Setting

/-- The name of an option. -/
def name : Setting → String
  | assets     => "assets"
  | config     => "config"
  | shaderRoot => "shader-root"

/-- The option of a name. -/
def ofName? (s : String) : Option Setting := [assets, config, shaderRoot].find? (·.name = s)

/-- Whether a value will do: files have names. -/
def accepts (s : Setting) (value : String) : Bool := s = shaderRoot || value ≠ ""

end Setting

/-- The values of the options. -/
structure Options where
  assets?     : Option String := none
  config?     : Option String := none
  shaderRoot? : Option String := none
  deriving DecidableEq, Repr

namespace Options

/-- The value of an option. -/
def value? (o : Options) : Setting → Option String
  | .assets     => o.assets?
  | .config     => o.config?
  | .shaderRoot => o.shaderRoot?

/-- Gives an option a value, unless it has one or the value will not do. -/
def set? (o : Options) (s : Setting) (value : String) : Option Options :=
  if (o.value? s).isSome || !s.accepts value then none
  else match s with
    | .assets     => some { o with assets? := value }
    | .config     => some { o with config? := value }
    | .shaderRoot => some { o with shaderRoot? := value }

/-- The values of one, and of another where the first has none. -/
def orElse (a b : Options) : Options where
  assets?     := a.assets? <|> b.assets?
  config?     := a.config? <|> b.config?
  shaderRoot? := a.shaderRoot? <|> b.shaderRoot?

/-- The directory that all files are below. -/
def assets (o : Options) : String := o.assets?.getD "."

end Options

/-- What help can be about. -/
inductive Topic where
  | program
  | action (a : Action)
  | help
  deriving DecidableEq, Repr

/-- What arguments ask for. -/
inductive Request where
  | run (options : Options) (action : Action) (root : String)
  | help (topic : Topic)
  | version
  /-- Nothing that can be done. -/
  | misuse
  deriving DecidableEq, Repr

/-! ### Tokens -/

/-- An argument by its form, or an option with its value. -/
inductive Token where
  | set (s : Setting) (value : String)
  /-- A wish for more log lines. -/
  | verbose
  | help
  | version
  | word (s : String)
  /-- All that follows is words. -/
  | onlyWords
  | wrong
  deriving DecidableEq, Repr

namespace Token

/-- Whether an argument is no word. -/
def isMarked (a : String) : Bool := a.toList.head? = some '-' && a ≠ "-"

/-- The flag of a letter. -/
def ofLetter : Char → Token
  | 'v' => verbose
  | 'h' => help
  | 'V' => version
  | _   => wrong

/-- The flag of a long name. -/
def ofFlagName : String → Token
  | "verbose" => verbose
  | "help"    => help
  | "version" => version
  | _         => wrong

/-- The tokens of arguments. -/
def ofArguments : List String → List Token
  | []        => []
  | a :: rest =>
    if !isMarked a then word a :: ofArguments rest
    else match a.toList with
      | ['-', '-']       => onlyWords :: rest.map word
      | '-' :: '-' :: cs =>
        let name := String.ofList (cs.takeWhile (· ≠ '='))
        match Setting.ofName? name, cs.dropWhile (· ≠ '=') with
        | some s, _ :: value => set s (String.ofList value) :: ofArguments rest
        | some s, []         =>
          match rest with
          | []            => [wrong]
          | value :: rest => if isMarked value then [wrong] else set s value :: ofArguments rest
        | none,   []         => ofFlagName name :: ofArguments rest
        | none,   _ :: _     => [wrong]
      | _ :: letters     => letters.map ofLetter ++ ofArguments rest
      | []               => [wrong]

end Token

/-! ### Requests -/

namespace Request

/-- What the tokens behind an action's name ask for. -/
def ofActionTokens (outer : Options) (a : Action) (o : Options) :
    (root? : Option String) → List Token → Request
  | some root, []               => run (o.orElse outer) a root
  | none,      []               => misuse
  | root?,     .set s v :: ts   =>
    match o.set? s v with
    | some o => ofActionTokens outer a o root? ts
    | none   => misuse
  | root?,     .verbose :: ts   => ofActionTokens outer a o root? ts
  | root?,     .onlyWords :: ts => ofActionTokens outer a o root? ts
  | none,      .word w :: ts    => ofActionTokens outer a o (some w) ts
  | _,         .help :: _       => help (.action a)
  | _,         _ :: _           => misuse

/-- What the tokens behind the word `help` ask for. -/
def ofHelpTokens : List Token → Request
  | []            => help .program
  | [.word "help"] => help .help
  | [.word w]     =>
    match Action.ofName? w with
    | some a => help (.action a)
    | none   => misuse
  | _             => misuse

/-- What tokens ask for. -/
def ofTokens (o : Options) : List Token → Request
  | .set s v :: ts =>
    match o.set? s v with
    | some o => ofTokens o ts
    | none   => misuse
  | .verbose :: ts => ofTokens o ts
  | .help :: _     => help .program
  | .version :: _  => version
  | .word w :: ts  =>
    match Action.ofName? w with
    | some a => ofActionTokens o a {} none ts
    | none   => if w = "help" then ofHelpTokens ts else misuse
  | _              => misuse

/-- What arguments ask for. -/
def ofArguments (args : List String) : Request := ofTokens {} (Token.ofArguments args)

end Request

end RenderMaterials.CommandLine

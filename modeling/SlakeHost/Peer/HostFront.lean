import SlakeHost.Peer.HostTerm

/-!
# The line front-end

Source text is read line by line. Blank lines and comments are skipped; every
other line is cut into words at white space and read as the module's name or as
one command. A term or a type is read from the front of the words by recursive
descent under a bound, and a command takes it only when no word is left over.
-/
namespace SlakeHost.HostFront

open HostTerm

def reasonEmptyModule : String := "EMPTY-MODULE-FAIL-CLOSED"
def reasonLineShape : String := "LINE-SHAPE"
def reasonUnknownCmd : String := "UNKNOWN-CMD"
def reasonParseFail : String := "PARSE-FAIL"
def reasonNotWellFormed : String := "NOT-WELL-FORMED"
def reasonZeroCtor : String := "ZERO-CTOR-INDUCTIVE"
def reasonMissingModule : String := "MISSING-MODULE"

inductive FrontResult where
  | accept (m : Module)
  | reject (reason : String)
  deriving Repr

/-! ### Words -/

def isWs (c : Char) : Bool := c == ' ' || c == '\t' || c == '\r'

def lineTokensGo (cur : List Char) (acc : List String) : List Char → List String
  | [] =>
    let acc' := if cur.isEmpty then acc else String.ofList cur.reverse :: acc
    acc'.reverse
  | c :: rest =>
    if isWs c then
      if cur.isEmpty then lineTokensGo [] acc rest
      else lineTokensGo [] (String.ofList cur.reverse :: acc) rest
    else lineTokensGo (c :: cur) acc rest

def lineTokens (line : String) : List String := lineTokensGo [] [] line.toList

def isIgnorableLine (line : String) : Bool :=
  match lineTokens line with
  | [] => true
  | t :: _ =>
    match t.toList with
    | '#' :: _ => true
    | _ => false

def isDigit (c : Char) : Bool := '0' ≤ c && c ≤ '9'

def isNatLit (s : String) : Bool := !s.toList.isEmpty && s.toList.all isDigit

def ofNatLitGo (acc : Nat) : List Char → Nat
  | [] => acc
  | c :: rest => ofNatLitGo (acc * 10 + (c.toNat - '0'.toNat)) rest

def ofNatLit? (s : String) : Option Nat :=
  if !isNatLit s then none else some (ofNatLitGo 0 s.toList)

def isStringLit (s : String) : Bool :=
  match s.toList with
  | '"' :: rest =>
    match rest.reverse with
    | '"' :: _ => true
    | _ => false
  | _ => false

def stripStringLit (s : String) : String :=
  match s.toList with
  | '"' :: rest =>
    match rest.reverse with
    | '"' :: mid => String.ofList mid.reverse
    | _ => s
  | _ => s

def isKeyword (s : String) : Bool :=
  s == "module" || s == "import" || s == "namespace" || s == "end"
    || s == "open" || s == "inductive" || s == "deriving" || s == "def"
    || s == "check" || s == "match" || s == "some" || s == "none"
    || s == "true" || s == "false" || s == "var" || s == "const"
    || s == "app" || s == ":=" || s == ":" || s == "->" || s == "|"
    || s == "=>" || s == "(" || s == ")" || s == "_"

def isIdent (s : String) : Bool :=
  !s.isEmpty && !isKeyword s && !isNatLit s && !isStringLit s

def parseFuel : Nat := 64

/-! ### Types -/

def parseHostTypeN : Nat → List String → Option (HostType × List String)
  | 0, _ => none
  | n + 1, toks =>
    match toks with
    | [] => none
    | "Mult" :: rest => some (.mult, rest)
    | "Nat" :: rest => some (.nat, rest)
    | "String" :: rest => some (.string, rest)
    | "Bool" :: rest => some (.bool, rest)
    | "Option" :: rest =>
      match parseHostTypeN n rest with
      | some (t, rest2) => some (.option t, rest2)
      | none => none
    -- Any other word is the name of a type, declared or not.
    | t :: rest => if isIdent t then some (.named ⟨t⟩, rest) else none

def parseHostTypeArrowN : Nat → List String → Option (HostType × List String)
  | 0, _ => none
  | n + 1, toks =>
    match parseHostTypeN n toks with
    | none => none
    | some (left, rest) =>
      match rest with
      -- An arrow has to be followed by a type: the part read so far is not given back.
      | "->" :: rest2 =>
        match parseHostTypeArrowN n rest2 with
        | some (right, rest3) => some (.arrow left right, rest3)
        | none => none
      | _ => some (left, rest)

def parseHostType (toks : List String) : Option (HostType × List String) :=
  parseHostTypeArrowN parseFuel toks

/-! ### Patterns and terms -/

def parsePat : List String → Option (Pat × List String)
  | [] => none
  | "_" :: rest => some (.wild, rest)
  | t :: rest =>
    if isNatLit t then
      match ofNatLit? t with
      | some k => some (.litNat k, rest)
      | none => none
    else if isIdent t then some (.ctor0 ⟨t⟩, rest)
    else none

/-- A term that is not a match: the arms of a match hold these and no others. -/
def parseAtomTermN : Nat → List String → Option (Term × List String)
  | 0, _ => none
  | n + 1, toks =>
    match toks with
    | [] => none
    | "none" :: rest => some (.none_, rest)
    | "true" :: rest => some (.litBool true, rest)
    | "false" :: rest => some (.litBool false, rest)
    | "some" :: rest =>
      match parseAtomTermN n rest with
      | some (t, rest2) => some (.some_ t, rest2)
      | none => none
    | "var" :: name :: rest => if isIdent name then some (.var ⟨name⟩, rest) else none
    | "const" :: name :: rest => if isIdent name then some (.const ⟨name⟩, rest) else none
    | "app" :: rest =>
      match parseAtomTermN n rest with
      | some (f, rest1) =>
        match parseAtomTermN n rest1 with
        | some (a, rest2) => some (.app f a, rest2)
        | none => none
      | none => none
    | "(" :: rest =>
      match parseAtomTermN n rest with
      | some (t, ")" :: rest2) => some (t, rest2)
      | _ => none
    | t :: rest =>
      if isNatLit t then
        match ofNatLit? t with
        | some k => some (.litNat k, rest)
        | none => none
      else if isStringLit t then some (.litString (stripStringLit t), rest)
      else if isIdent t then some (.const ⟨t⟩, rest)
      else none

/-- The second bound counts the arms; each body is read with the whole first bound. -/
def parseMatchArmsN : Nat → Nat → List (Pat × Term) → List String →
    Option (List (Pat × Term) × List String)
  | _, 0, _, _ => none
  | termFuel, f + 1, acc, ts =>
    match ts with
    | "|" :: restA =>
      match parsePat restA with
      | none => none
      | some (p, "=>" :: restB) =>
        match parseAtomTermN termFuel restB with
        | none => none
        | some (body, restC) => parseMatchArmsN termFuel f (acc ++ [(p, body)]) restC
      | some _ => none
    | _ => some (acc, ts)

def parseTermN : Nat → List String → Option (Term × List String)
  | 0, _ => none
  | n + 1, toks =>
    match toks with
    | [] => none
    | "match" :: rest =>
      match parseAtomTermN n rest with
      | none => none
      | some (scrut, rest1) =>
        match parseMatchArmsN n n [] rest1 with
        | some (armList, rest2) =>
          if armList.isEmpty then none else some (.match_ scrut armList, rest2)
        | none => none
    | _ => parseAtomTermN (n + 1) toks

def parseTerm (toks : List String) : Option (Term × List String) := parseTermN parseFuel toks

def parseTermAll (toks : List String) : Option Term :=
  match parseTerm toks with
  | some (t, []) => some t
  | _ => none

def parseHostTypeAll (toks : List String) : Option HostType :=
  match parseHostType toks with
  | some (ty, []) => some ty
  | _ => none

/-! ### Commands -/

def splitAtMark (mark : String) : List String → Option (List String × List String)
  | [] => none
  | t :: rest =>
    if t == mark then some ([], rest)
    else
      match splitAtMark mark rest with
      | some (pre, post) => some (t :: pre, post)
      | none => none

def splitAtAssign : List String → Option (List String × List String) := splitAtMark ":="

def splitAtColon : List String → Option (List String × List String) := splitAtMark ":"

def parseCtors : List String → Option (List CtorDecl × List String)
  | [] => some ([], [])
  -- The word stays for the caller.
  | "deriving" :: rest => some ([], "deriving" :: rest)
  | t :: rest =>
    if isIdent t then
      match parseCtors rest with
      | some (cs, rest2) => some ({ name := ⟨t⟩ } :: cs, rest2)
      | none => none
    else none

def parseDeriving : List String → Option (List Name)
  | [] => some []
  | t :: rest =>
    if isIdent t then
      match parseDeriving rest with
      | some ns => some (⟨t⟩ :: ns)
      | none => none
    else none

inductive LineParse where
  | moduleName (name : Name)
  | cmd (c : Cmd)
  | err (reason : String)
  deriving Repr

/-- A line that is a keyword and one name. -/
def nameLine (event : Name → LineParse) : List String → LineParse
  | [name] => if isIdent name then event ⟨name⟩ else .err reasonLineShape
  | _ => .err reasonLineShape

def openLine (rest : List String) : LineParse :=
  if rest.isEmpty then .err reasonLineShape
  else if rest.all isIdent then .cmd (.openNs (rest.map Name.mk))
  else .err reasonLineShape

def inductiveLine : List String → LineParse
  | [] => .err reasonLineShape
  | name :: rest =>
    if !isIdent name then .err reasonLineShape
    else
      match parseCtors rest with
      | none => .err reasonParseFail
      | some (ctors, rest2) =>
        if ctors.isEmpty then .err reasonZeroCtor
        else
          match rest2 with
          | [] => .cmd (.inductive_ ⟨name⟩ ctors [])
          | "deriving" :: derRest =>
            match parseDeriving derRest with
            | some der => .cmd (.inductive_ ⟨name⟩ ctors der)
            | none => .err reasonParseFail
          | _ => .err reasonLineShape

/-- The annotation of a definition: `some none` where there is none, `none` where it
does not read. -/
def defType : List String → Option (Option HostType)
  | [] => some none
  | ":" :: tyToks =>
    match parseHostTypeAll tyToks with
    | some ty => some (some ty)
    | none => none
  | _ => none

def defLine : List String → LineParse
  | [] => .err reasonLineShape
  | name :: rest =>
    if !isIdent name then .err reasonLineShape
    else
      match splitAtAssign rest with
      | none => .err reasonLineShape
      | some (pre, bodyToks) =>
        match defType pre with
        | none => .err reasonParseFail
        | some ty =>
          match parseTermAll bodyToks with
          | some body => .cmd (.def_ ⟨name⟩ ty body)
          | none => .err reasonParseFail

def checkLine (rest : List String) : LineParse :=
  match splitAtColon rest with
  | none => .err reasonLineShape
  | some (tmToks, tyToks) =>
    match parseTermAll tmToks, parseHostTypeAll tyToks with
    | some tm, some ty => .cmd (.check tm ty)
    | _, _ => .err reasonParseFail

def parseLineTokens : List String → LineParse
  | [] => .err reasonLineShape
  | head :: rest =>
    if head == "module" then nameLine .moduleName rest
    else if head == "import" then nameLine (fun x => .cmd (.importModule x)) rest
    else if head == "namespace" then nameLine (fun x => .cmd (.namespace_ x)) rest
    else if head == "end" then nameLine (fun x => .cmd (.endNamespace x)) rest
    else if head == "open" then openLine rest
    else if head == "inductive" then inductiveLine rest
    else if head == "def" then defLine rest
    else if head == "check" then checkLine rest
    -- A keyword that opens no line is a line out of shape, any other word no command.
    else if isKeyword head then .err reasonLineShape
    else .err reasonUnknownCmd

/-! ### Modules -/

def foldLinesGo (modName : Option Name) (cmds : List Cmd) : List String → FrontResult
  | [] =>
    match modName with
    | none =>
      -- A file without a line of its own is called empty and not nameless.
      if cmds.isEmpty then .reject reasonEmptyModule else .reject reasonMissingModule
    | some name =>
      let m : Module := { name := name, commands := cmds }
      if cmds.isEmpty then .reject reasonEmptyModule
      else if isWellFormed m then .accept m
      else .reject reasonNotWellFormed
  | line :: rest =>
    if isIgnorableLine line then foldLinesGo modName cmds rest
    else
      match parseLineTokens (lineTokens line) with
      | .err reason => .reject reason
      | .moduleName name =>
        match modName with
        | some _ => .reject reasonLineShape
        | none => foldLinesGo (some name) cmds rest
      | .cmd c => foldLinesGo modName (cmds ++ [c]) rest

def foldLines (lines : List String) : FrontResult := foldLinesGo none [] lines

/-- The lines of a text, as `splitOn "\n"` cuts them. -/
def splitLines (src : String) : List String := (src.toList.splitOn '\n').map String.ofList

/-- The readers of other shapes, asked in turn when the line dialect rejects. What
they accept is not looked at here. -/
def parseSource (readers : List (String → Option Module)) (src : String) : FrontResult :=
  let folded := foldLines (splitLines src)
  match folded with
  | .accept m => .accept m
  | .reject _ =>
    match readers.findSome? (fun reader => reader src) with
    | some m => .accept m
    | none => folded

end SlakeHost.HostFront

import SlakeHost.Peer.HostFront

/-!
# The grammar of the line dialect

What a list of words spells, as a relation: a word list derives a type, a term or
a command by the rules below, whatever program reads it. The index of a type or a
term bounds the depth of its derivation, so that a reader with that much fuel can
follow it. Brackets leave no trace in the term they enclose, and the arms of a
match hold terms that are not matches.
-/
namespace SlakeHost.HostFront

open HostTerm

/-- The words that name a type of their own and so never a module's type. -/
def isBaseType (w : String) : Bool :=
  w == "Mult" || w == "Nat" || w == "String" || w == "Bool" || w == "Option"

inductive SpellsSimple : Nat → List String → HostType → Prop where
  | mult {n : Nat} : SpellsSimple (n + 1) ["Mult"] .mult
  | nat {n : Nat} : SpellsSimple (n + 1) ["Nat"] .nat
  | string {n : Nat} : SpellsSimple (n + 1) ["String"] .string
  | bool {n : Nat} : SpellsSimple (n + 1) ["Bool"] .bool
  | option {n : Nat} {ws : List String} {t : HostType} (elem : SpellsSimple n ws t) :
      SpellsSimple (n + 1) ("Option" :: ws) (.option t)
  | named {n : Nat} {w : String} (ident : isIdent w = true) (own : isBaseType w = false) :
      SpellsSimple (n + 1) [w] (.named ⟨w⟩)

/-- Arrows lean to the right and have no brackets, so a domain is never an arrow. -/
inductive SpellsType : Nat → List String → HostType → Prop where
  | simple {n : Nat} {ws : List String} {t : HostType} (is : SpellsSimple n ws t) :
      SpellsType (n + 1) ws t
  | arrow {n : Nat} {ws ws' : List String} {d c : HostType} (dom : SpellsSimple n ws d)
      (cod : SpellsType n ws' c) : SpellsType (n + 1) (ws ++ "->" :: ws') (.arrow d c)

inductive SpellsPat : String → Pat → Prop where
  | wild : SpellsPat "_" .wild
  | litNat {w : String} {k : Nat} (digits : ofNatLit? w = some k) : SpellsPat w (.litNat k)
  | ctor0 {w : String} (ident : isIdent w = true) : SpellsPat w (.ctor0 ⟨w⟩)

def quoted (s : String) : String := String.ofList ('"' :: (s.toList ++ ['"']))

inductive SpellsAtom : Nat → List String → Term → Prop where
  | none_ {n : Nat} : SpellsAtom (n + 1) ["none"] .none_
  | true_ {n : Nat} : SpellsAtom (n + 1) ["true"] (.litBool true)
  | false_ {n : Nat} : SpellsAtom (n + 1) ["false"] (.litBool false)
  | some_ {n : Nat} {ws : List String} {t : Term} (arg : SpellsAtom n ws t) :
      SpellsAtom (n + 1) ("some" :: ws) (.some_ t)
  | var {n : Nat} {x : String} (ident : isIdent x = true) :
      SpellsAtom (n + 1) ["var", x] (.var ⟨x⟩)
  | const {n : Nat} {x : String} (ident : isIdent x = true) :
      SpellsAtom (n + 1) ["const", x] (.const ⟨x⟩)
  | app {n : Nat} {ws ws' : List String} {f a : Term} (fn : SpellsAtom n ws f)
      (arg : SpellsAtom n ws' a) : SpellsAtom (n + 1) ("app" :: (ws ++ ws')) (.app f a)
  | bracket {n : Nat} {ws : List String} {t : Term} (inner : SpellsAtom n ws t) :
      SpellsAtom (n + 1) ("(" :: (ws ++ [")"])) t
  | litNat {n : Nat} {w : String} {k : Nat} (digits : ofNatLit? w = some k) :
      SpellsAtom (n + 1) [w] (.litNat k)
  | litString {n : Nat} {s : String} : SpellsAtom (n + 1) [quoted s] (.litString s)
  | bare {n : Nat} {x : String} (ident : isIdent x = true) : SpellsAtom (n + 1) [x] (.const ⟨x⟩)

inductive SpellsArms (n : Nat) : List String → List (Pat × Term) → Prop where
  | nil : SpellsArms n [] []
  | cons {w : String} {ws ws' : List String} {p : Pat} {body : Term} {arms : List (Pat × Term)}
      (pat : SpellsPat w p) (is : SpellsAtom n ws body) (rest : SpellsArms n ws' arms) :
      SpellsArms n ("|" :: w :: "=>" :: (ws ++ ws')) ((p, body) :: arms)

/-- A match has fewer arms than the bound leaves for each of their bodies. -/
inductive SpellsTerm : Nat → List String → Term → Prop where
  | atom {n : Nat} {ws : List String} {t : Term} (is : SpellsAtom (n + 1) ws t) :
      SpellsTerm (n + 1) ws t
  | match_ {n : Nat} {ws ws' : List String} {scrut : Term} {arms : List (Pat × Term)}
      (on : SpellsAtom n ws scrut) (cases : SpellsArms n ws' arms) (some_arm : arms ≠ [])
      (few : arms.length < n) :
      SpellsTerm (n + 1) ("match" :: (ws ++ ws')) (.match_ scrut arms)

/-- A command is a line of its own, and its terms and types are read with `parseFuel`. -/
inductive SpellsCmd : List String → Cmd → Prop where
  | importModule {x : String} (ident : isIdent x = true) :
      SpellsCmd ["import", x] (.importModule ⟨x⟩)
  | namespace_ {x : String} (ident : isIdent x = true) :
      SpellsCmd ["namespace", x] (.namespace_ ⟨x⟩)
  | endNamespace {x : String} (ident : isIdent x = true) :
      SpellsCmd ["end", x] (.endNamespace ⟨x⟩)
  | openNs {xs : List String} (some_name : xs ≠ []) (idents : ∀ x ∈ xs, isIdent x = true) :
      SpellsCmd ("open" :: xs) (.openNs (xs.map Name.mk))
  | inductive_ {x : String} {cs : List String} (ident : isIdent x = true) (some_ctor : cs ≠ [])
      (ctors : ∀ c ∈ cs, isIdent c = true) :
      SpellsCmd ("inductive" :: x :: cs) (.inductive_ ⟨x⟩ (cs.map fun c => ⟨⟨c⟩⟩) [])
  | inductiveDeriving {x : String} {cs ds : List String} (ident : isIdent x = true)
      (some_ctor : cs ≠ []) (ctors : ∀ c ∈ cs, isIdent c = true)
      (classes : ∀ d ∈ ds, isIdent d = true) :
      SpellsCmd ("inductive" :: x :: (cs ++ "deriving" :: ds))
        (.inductive_ ⟨x⟩ (cs.map fun c => ⟨⟨c⟩⟩) (ds.map Name.mk))
  | def_ {x : String} {ws : List String} {body : Term} (ident : isIdent x = true)
      (is : SpellsTerm parseFuel ws body) :
      SpellsCmd ("def" :: x :: ":=" :: ws) (.def_ ⟨x⟩ none body)
  | defTyped {x : String} {ts ws : List String} {ty : HostType} {body : Term}
      (ident : isIdent x = true) (type : SpellsType parseFuel ts ty)
      (is : SpellsTerm parseFuel ws body) :
      SpellsCmd ("def" :: x :: ":" :: (ts ++ ":=" :: ws)) (.def_ ⟨x⟩ (some ty) body)
  | check {ts ws : List String} {ty : HostType} {tm : Term} (is : SpellsTerm parseFuel ws tm)
      (type : SpellsType parseFuel ts ty) :
      SpellsCmd ("check" :: (ws ++ ":" :: ts)) (.check tm ty)

/-- The lines that say something, as words. -/
def codeLines (lines : List String) : List (List String) :=
  (lines.filter fun line => !isIgnorableLine line).map lineTokens

/-- A module is one line that names it, among the lines of its commands in order. -/
def SpellsModule (code : List (List String)) (m : Module) : Prop :=
  ∃ pre post before after, code = pre ++ ["module", m.name.raw] :: post ∧
    isIdent m.name.raw = true ∧ List.Forall₂ SpellsCmd pre before ∧
    List.Forall₂ SpellsCmd post after ∧ m.commands = before ++ after

end SlakeHost.HostFront

import Routebook.Yaml.Scalar

/-!
# Tokens of Yaml text

The depth of a line opens and closes blocks, so the tokens that do so are not written anywhere: a
block opens where a line goes deeper than the one around it, and closes before a line that does not
go as deep. **A key is known only by the colon after it,** so a `Candidate` remembers where a key
may have begun, and the tokens that begin it are put in there afterwards.
-/

namespace Routebook.Yaml

inductive Token where
  | version (known : Bool)
  | tagHandle (handle meaning : String)
  | documentStart | documentEnd
  | openList | openFields | closeBlock
  | openFlowList | closeFlowList | openFlowFields | closeFlowFields
  | item | comma | key | value
  | alias (name : String)
  | anchor (name : String)
  | tag (handle rest : String)
  | scalar (plain : Bool) (text : String)
  deriving Repr, DecidableEq, Inhabited

/-- Where a key may have begun: the token and the place. A key that must be one has to be followed
by a colon on its line. -/
structure Candidate where
  token : Nat
  line : Nat
  column : Nat
  index : Nat
  required : Bool

structure LexState where
  place : Place
  tokens : Array Token
  /-- The columns of the open blocks, innermost first. -/
  blocks : List Nat
  /-- What may be a key, outside of brackets and inside of each open one, innermost first. -/
  candidate : Option Candidate
  outer : List (Option Candidate)
  keyAllowed : Bool

abbrev Lex := StateT LexState Option

namespace Lex

def refuse {α : Type} : Lex α := fun _ => none

def scan {α : Type} (s : Scan α) : Lex α := fun st =>
  (s st.place).map fun (a, p) => (a, { st with place := p })

def put (t : Token) : Lex Unit := modify fun st => { st with tokens := st.tokens.push t }

/-- Put a token in front of the one of the given number. -/
def insert (n : Nat) (t : Token) : Lex Unit :=
  modify fun st => { st with tokens := st.tokens.extract 0 n ++ #[t] ++ st.tokens.extract n }

def allowKey (allowed : Bool) : Lex Unit := modify fun st => { st with keyAllowed := allowed }

def inFlow : Lex Bool := return !(← get).outer.isEmpty

def column : Lex Nat := return (← get).place.column

/-! ## Keys -/

/-- Forget what may be a key, unless it had to be one. -/
def dropCandidate : Lex Unit := do
  if (← get).candidate.any (·.required) then refuse
  modify fun st => { st with candidate := none }

/-- Remember that a key may begin here. One at the depth of its block has to be a key. -/
def saveCandidate : Lex Unit := do
  if (← get).keyAllowed then
    dropCandidate
    modify fun st => { st with
      candidate := some
        { token := st.tokens.size
          line := st.place.line
          column := st.place.column
          index := st.place.index
          required := st.outer.isEmpty && st.blocks.head? == some st.place.column } }

def keyLimit : Nat := 1024

def isStale (p : Place) (c : Candidate) : Bool := c.line < p.line || c.index + keyLimit < p.index

/-- Forget candidates of earlier lines, and those that have grown too long. -/
def dropStale : Lex Unit := do
  let st ← get
  let stale (c : Option Candidate) : Bool := c.any (isStale st.place)
  if (st.candidate :: st.outer).any fun c => stale c && c.any (·.required) then refuse
  set { st with
    candidate := if stale st.candidate then none else st.candidate
    outer := st.outer.map fun c => if stale c then none else c }

/-! ## Blocks -/

/-- Open a block at a column that is deeper than the block around it; its token goes in front of
the token of the given number. -/
def openBlock (column number : Nat) (t : Token) : Lex Unit := do
  let st ← get
  if st.outer.isEmpty && st.blocks.head?.all (· < column) then
    set { st with blocks := column :: st.blocks }
    insert number t

/-- Close the blocks that are deeper than what comes next. -/
def closeBlocksWhile (deeper : Nat → Bool) : Lex Unit := do
  let st ← get
  if st.outer.isEmpty then
    let closed := st.blocks.takeWhile deeper
    set { st with blocks := st.blocks.drop closed.length }
    closed.forM fun _ => put .closeBlock

/-! ## Blanks and comments -/

/-- Skip to the next token. A tab cannot stand where a key can begin. A key can begin after a line
end outside of brackets. -/
def skipGaps : Nat → Lex Unit
  | 0 => refuse
  | n + 1 => do
    let tabs := (← inFlow) || !(← get).keyAllowed
    discard (scan (Scan.takeWhile fun c => c == ' ' || (tabs && c == '\t')))
    if (← scan Scan.peek) == some '#' then
      discard (scan (Scan.takeWhile fun c => !isBreak c))
    if (← scan Scan.peek).any isBreak then
      discard (scan Scan.lineEnd)
      unless ← inFlow do allowKey true
      skipGaps n

/-! ## Marks -/

def directive : Lex Unit := do
  closeBlocksWhile fun _ => true
  dropCandidate
  allowKey false
  scan (Scan.skip 1)
  let name ← scan (Scan.takeWhile isNameChar)
  if !isGap (← scan Scan.peek) then refuse
  discard (scan (Scan.takeWhile isBlank))
  if name == "YAML".toList then
    let major ← scan (Scan.takeWhile Char.isDigit)
    if (← scan Scan.next) != '.' then refuse
    let minor ← scan (Scan.takeWhile Char.isDigit)
    if major.isEmpty || minor.isEmpty then refuse
    put (.version (major == ['1'] && (minor == ['1'] || minor == ['2'])))
  else if name == "TAG".toList then
    let handle ← scan (Scan.takeWhile fun c => c == '!' || isNameChar c)
    if handle.head? != some '!' || handle.getLast? != some '!' then refuse
    if !(← scan Scan.peek).any isBlank then refuse
    discard (scan (Scan.takeWhile isBlank))
    let meaning ← scan (Scan.takeWhile fun c => !isGap (some c))
    if meaning.isEmpty then refuse
    put (.tagHandle (String.ofList handle) (String.ofList meaning))
  else refuse
  scan Scan.skipRemark
  if (← scan Scan.peek).any fun c => !isBreak c then refuse
  discard (scan Scan.lineEnd)

def documentMark (t : Token) : Lex Unit := do
  closeBlocksWhile fun _ => true
  dropCandidate
  allowKey false
  scan (Scan.skip 3)
  put t

def openFlow (t : Token) : Lex Unit := do
  saveCandidate
  modify fun st => { st with candidate := none, outer := st.candidate :: st.outer }
  allowKey true
  scan (Scan.skip 1)
  put t

def closeFlow (t : Token) : Lex Unit := do
  dropCandidate
  modify fun st => match st.outer with
    | [] => st
    | c :: outer => { st with candidate := c, outer := outer }
  allowKey false
  scan (Scan.skip 1)
  put t

def comma : Lex Unit := do
  dropCandidate
  allowKey true
  scan (Scan.skip 1)
  put .comma

/-- The hyphen of a list's item, which opens the list if it is deeper than what is around it. -/
def item : Lex Unit := do
  if !(← inFlow) then
    if !(← get).keyAllowed then refuse
    openBlock (← column) (← get).tokens.size .openList
  dropCandidate
  allowKey true
  scan (Scan.skip 1)
  put .item

/-- The mark of a key that may be long. -/
def markedKey : Lex Unit := do
  if !(← inFlow) then
    if !(← get).keyAllowed then refuse
    openBlock (← column) (← get).tokens.size .openFields
  dropCandidate
  allowKey (!(← inFlow))
  scan (Scan.skip 1)
  put .key

/-- The colon before a value. The key before it gets its tokens now. -/
def value : Lex Unit := do
  match (← get).candidate with
  | some c =>
    insert c.token .key
    openBlock c.column c.token .openFields
    modify fun st => { st with candidate := none }
    allowKey false
  | none =>
    if !(← inFlow) then
      if !(← get).keyAllowed then refuse
      openBlock (← column) (← get).tokens.size .openFields
    allowKey (!(← inFlow))
  scan (Scan.skip 1)
  put .value

/-! ## Names, tags and scalars -/

/-- The name of an anchor or of the alias of one. -/
def anchorName (t : String → Token) : Lex Unit := do
  saveCandidate
  allowKey false
  scan (Scan.skip 1)
  let name ← scan (Scan.takeWhile isNameChar)
  let after ← scan Scan.peek
  let marks := ['?', ':', ',', ']', '\x7d', '%', '@', '\x60']
  if name.isEmpty || !(isGap after || after.any marks.contains) then refuse
  put (t (String.ofList name))

/-- Characters of a tag, of which the marks of lists stand only in a tag in full. -/
def isTagChar (full : Bool) (c : Char) : Bool :=
  isNameChar c || [';', '/', '?', ':', '@', '&', '=', '+', '$', '.', '!', '~', '*', '\'', '(', ')',
    '%'].contains c || (full && [',', '[', ']'].contains c)

/-- Replace percent signs and the digits after them by what they stand for. -/
def percentDecoded? : List Char → Option (List Char)
  | [] => some []
  | '%' :: a :: b :: cs => do
    let n ← Text.hexNumber? [a, b]
    if n < 0x80 then return Char.ofNat n :: (← percentDecoded? cs) else none
  | c :: cs => if c == '%' then none else (percentDecoded? cs).map (c :: ·)

/-- A tag: in full between angles, or a handle between exclamation marks and the rest. -/
def tag : Lex Unit := do
  saveCandidate
  allowKey false
  let cs := (← get).place.rest
  if cs.take 2 == ['!', '<'] then
    scan (Scan.skip 2)
    let name ← scan (Scan.takeWhile (isTagChar true))
    if name.isEmpty || (← scan Scan.next) != '>' then refuse
    match percentDecoded? name with
    | some name => put (.tag "" (String.ofList name))
    | none => refuse
  else
    let handle := (cs.drop 1).takeWhile isNameChar
    let named := cs[handle.length + 1]? == some '!'
    scan (Scan.skip (if named then handle.length + 2 else 1))
    let rest ← scan (Scan.takeWhile (isTagChar false))
    match percentDecoded? rest with
    | none => refuse
    | some rest =>
      if named then
        if rest.isEmpty then refuse
        put (.tag (String.ofList ('!' :: (handle ++ ['!']))) (String.ofList rest))
      else if rest.isEmpty then put (.tag "" "!")
      else put (.tag "!" (String.ofList rest))
  let after ← scan Scan.peek
  if !(isGap after || ((← inFlow) && after == some ',')) then refuse

def block (literal : Bool) : Lex Unit := do
  dropCandidate
  allowKey true
  let text ← scan (blockScalar literal (← get).blocks.head?)
  put (.scalar false (String.ofList text))

def quoted (single : Bool) : Lex Unit := do
  saveCandidate
  allowKey false
  let text ← scan (quotedScalar single)
  put (.scalar false (String.ofList text))

def plain : Lex Unit := do
  saveCandidate
  allowKey false
  let column := match (← get).blocks with
    | [] => 0
    | n :: _ => n + 1
  let (text, lineEnded) ← scan (plainScalar (← inFlow) column)
  if lineEnded then allowKey true
  put (.scalar true (String.ofList text))

/-! ## All tokens -/

/-- Whether a plain scalar can begin with a character, by the character after it. -/
def beginsPlain (inFlow : Bool) (c : Char) (after : Option Char) : Bool :=
  let marks := ['-', '?', ':', ',', '[', ']', '\x7b', '\x7d', '#', '&', '*', '!', '|', '>', '\'',
    '"', '%', '@', '\x60']
  !(isGap (some c) || marks.contains c) || (c == '-' && !after.any isBlank)
    || (!inFlow && (c == '?' || c == ':') && !isGap after)

/-- The next token, which begins with the given character. -/
def token (c : Char) : Lex Unit := do
  let after ← scan (Scan.peekAt 1)
  let flow ← inFlow
  if (← column) == 0 && c == '%' then directive
  else if ← scan Scan.atDocumentMark then
    documentMark (if c == '-' then .documentStart else .documentEnd)
  else if c == '[' then openFlow .openFlowList
  else if c == '\x7b' then openFlow .openFlowFields
  else if c == ']' then closeFlow .closeFlowList
  else if c == '\x7d' then closeFlow .closeFlowFields
  else if c == ',' then comma
  else if c == '-' && isGap after then item
  else if c == '?' && (flow || isGap after) then markedKey
  else if c == ':' && (flow || isGap after) then value
  else if c == '*' then anchorName .alias
  else if c == '&' then anchorName .anchor
  else if c == '!' then tag
  else if c == '|' && !flow then block true
  else if c == '>' && !flow then block false
  else if c == '\'' then quoted true
  else if c == '"' then quoted false
  else if beginsPlain flow c after then plain
  else refuse

/-- Tokens up to the end of the text. Each takes at least one character. -/
def tokens : Nat → Lex Unit
  | 0 => refuse
  | n + 1 => do
    skipGaps ((← get).place.rest.length + 1)
    dropStale
    let here ← column
    closeBlocksWhile (here < ·)
    match ← scan Scan.peek with
    | none =>
      closeBlocksWhile fun _ => true
      dropCandidate
    | some c =>
      token c
      tokens n

end Lex

def readTokens? (cs : List Char) : Option (List Token) := do
  let start : LexState := ⟨.start cs, #[], [], none, [], true⟩
  let (_, st) ← (Lex.tokens (cs.length + 1)).run start
  return st.tokens.toList

end Routebook.Yaml

import MetaFed.Regex.Escape
import MetaFed.Regex.Trouble

/-!
Reading regular expressions. The reader goes through the text once, from left to right, and keeps
the groups that are still open on a stack; each step takes an atom, a repetition mark, a bar or a
bracket off the text.
-/

namespace MetaFed.Regex

/-- How characters and anchors are to be understood. -/
structure Flags where
  foldCase : Bool := false
  multiline : Bool := false
  dotAll : Bool := false
  verbose : Bool := false
  ascii : Bool := false
  /-- Unicode was asked for by name. -/
  unicode : Bool := false
  /-- Repetitions are not allowed. -/
  unrepeated : Bool := false
  deriving DecidableEq, Repr

def flagLetters : List Char := ['a', 'i', 'L', 'm', 's', 't', 'u', 'x']

/-- Flags with those of some letters set and those of others cleared. -/
def Flags.switch (f : Flags) (on off : List Char) : Flags :=
  let now (c : Char) (old : Bool) : Bool := on.contains c || (old && !off.contains c)
  { f with
    foldCase := now 'i' f.foldCase, multiline := now 'm' f.multiline,
    dotAll := now 's' f.dotAll, verbose := now 'x' f.verbose }

def Flags.inside (f : Flags) (on off : List Char) : Flags :=
  { f.switch on off with ascii := on.contains 'a' || (f.ascii && !on.contains 'u') }

/-- Flags for the whole expression. -/
def Flags.overall (f : Flags) (on : List Char) : Flags :=
  { f.switch on [] with
    ascii := f.ascii || on.contains 'a', unicode := f.unicode || on.contains 'u',
    unrepeated := f.unrepeated || on.contains 't' }

/-- Flag letters that are to be set and cleared, and what ends them. -/
structure FlagList where
  on : List Char
  off : List Char
  /-- A group follows, not the rest of the expression. -/
  grouped : Bool
  deriving Repr

def flagList? (cs : List Char) : Option (FlagList × List Char) :=
  let on := cs.takeWhile flagLetters.contains
  if on.contains 'L' ∨ (on.contains 'a' ∧ on.contains 'u') then none
  else
    match cs.dropWhile flagLetters.contains with
    | ')' :: r => if on.isEmpty then none else some (⟨on, [], false⟩, r)
    | ':' :: r => if on.isEmpty ∨ on.contains 't' then none else some (⟨on, [], true⟩, r)
    | '-' :: r =>
      let off := r.takeWhile flagLetters.contains
      match r.dropWhile flagLetters.contains with
      | ':' :: r =>
        let wrong := ['a', 'L', 't', 'u'] ++ on
        if off.isEmpty ∨ on.contains 't' ∨ off.any wrong.contains then none
        else some (⟨on, off, true⟩, r)
      | _ => none
    | _ => none

/-- What a repetition mark may follow. -/
inductive ItemKind where
  | atom
  | anchor
  | repeated
  deriving DecidableEq, Repr

/-- A read part of the current branch. -/
structure Item where
  regex : Regex
  kind : ItemKind := .atom
  deriving Repr

/-- What an open group is for. -/
inductive GroupKind where
  | plain
  | kept (i : Nat)
  | atomic
  | ahead (wanted : Bool)
  | behind (wanted : Bool)
  | choice (i : Nat)
  deriving DecidableEq, Repr

/-- What surrounds an open group. -/
structure Outer where
  kind : GroupKind
  flags : Flags
  branches : List Regex
  items : List Item
  behindFrom : Option Nat
  deriving Repr

/-- The reader between two steps; lists hold the latest part first. -/
structure State where
  flags : Flags := {}
  branches : List Regex := []
  items : List Item := []
  outer : List Outer := []
  next : Nat := 1
  names : Assoc String Nat := []
  /-- Groups that are complete, with their widths. -/
  closed : Assoc Nat (Option Nat) := []
  used : List Nat := []
  /-- The first group that began inside the look behind that is being read. -/
  behindFrom : Option Nat := none
  /-- Nothing but flags for the whole expression was read. -/
  fresh : Bool := true
  /-- The expression cannot be used, however it goes on. -/
  broken : Bool := false
  deriving Repr

namespace State

def branch (st : State) : Regex :=
  st.items.foldr (fun i r => .seq r i.regex) .empty

def body (st : State) : Regex :=
  st.branches.foldl (fun r b => .alt b r) st.branch

def push (st : State) (r : Regex) (kind : ItemKind) : State :=
  { st with items := ⟨r, kind⟩ :: st.items, fresh := false }

def setOf (st : State) (negated : Bool) (parts : List CharSet.Part) : Regex :=
  .set ⟨parts, negated, st.flags.foldCase, st.flags.ascii⟩

def pushPoint (st : State) (n : Nat) : State :=
  st.push (st.setOf false [.range n n]) .atom

def pushEscaped (st : State) : Escaped → State
  | .point n => st.pushPoint n
  | .part p => st.push (st.setOf false [p]) .atom
  | .anchor a => st.push (.anchor a) .anchor

/-- One more reference to a group. The group is complete, and began before the look behind that is
being read. -/
def refer? (st : State) (i : Nat) : Option State := do
  let width ← Assoc.find? i st.closed
  if st.behindFrom.all (i < ·) then
    some { st.push (.again i st.flags.foldCase st.flags.ascii width) .atom with
      used := i :: st.used }
  else none

/-- A digit above zero after a backslash starts a character of three octal digits, or else a
reference to a group of at most two digits. -/
def pushNumber? (st : State) (cs : List Char) : Option (State × List Char) :=
  match exactly? 8 3 0 cs with
  | some (n, r) => if n ≤ 0o377 then some (st.pushPoint n, r) else none
  | none =>
    let (i, r) := atMost 10 2 0 cs
    (st.refer? i).map (·, r)

def number? (ds : List Char) : Option Nat :=
  if ds.isEmpty then none else some (ds.foldl (fun acc c => acc * 10 + (c.toNat - 48)) 0)

/-- The bounds in braces, or nothing where the brace is a plain character. -/
def bounds? (cs : List Char) : Option (Option Nat × Option Nat × List Char) :=
  let low := number? (cs.takeWhile Char.isDigit)
  match cs.dropWhile Char.isDigit with
  | ',' :: r =>
    match r.dropWhile Char.isDigit with
    | '\x7d' :: r' => some (low, number? (r.takeWhile Char.isDigit), r')
    | _ => none
  | '\x7d' :: r => if low.isNone then none else some (low, low, r)
  | _ => none

/-- The least number that is no bound of a repetition. -/
def tooMany : Nat := 0xFFFFFFFF

/-- Repeats the latest part; what follows the mark says in which order the numbers are tried. -/
def repeatLast (st : State) (low : Nat) (high : Option Nat) (cs : List Char) :
    Except Trouble (State × List Char) :=
  if tooMany ≤ low ∨ high.any (tooMany ≤ ·) then .error .hugeBound
  else
    match st.items with
    | i :: is =>
      if i.kind = .atom ∧ high.all (low ≤ ·) then
        let put (r : Regex) (cs : List Char) :=
          .ok ({ st with
            items := ⟨r, .repeated⟩ :: is, broken := st.broken || st.flags.unrepeated }, cs)
        match cs with
        | '?' :: r => put (.rep low high true i.regex) r
        | '+' :: r => put (.atomic (.rep low high false i.regex)) r
        | r => put (.rep low high false i.regex) r
      else .error .malformed
    | [] => .error .malformed

def openGroup (st : State) (kind : GroupKind) (inside : Flags) : State :=
  let behindFrom := match kind with
    | .behind _ => some (st.behindFrom.getD st.next)
    | _ => st.behindFrom
  { st with
    flags := inside, branches := [], items := [], behindFrom := behindFrom,
    outer := ⟨kind, st.flags, st.branches, st.items, st.behindFrom⟩ :: st.outer, fresh := false }

def openKept (st : State) : State :=
  { st.openGroup (.kept st.next) st.flags with next := st.next + 1 }

/-- Closes the innermost group. What looks behind needs a width. -/
def closeGroup? (st : State) : Option State :=
  match st.outer with
  | [] => none
  | o :: os =>
    let back := { st with
      flags := o.flags, branches := o.branches, items := o.items, outer := os,
      behindFrom := o.behindFrom }
    match o.kind with
    | .plain => some (back.push st.body .atom)
    | .kept i =>
      some { back.push (.group i st.body) .atom with
        closed := Assoc.put i st.body.width? st.closed }
    | .atomic => some (back.push (.atomic st.body) .atom)
    | .ahead wanted => some (back.push (.ahead wanted st.body) .atom)
    | .behind wanted =>
      match st.body.width? with
      | some n => some (back.push (.behind wanted n st.body) .atom)
      | none => some { back.push (.behind wanted 0 st.body) .atom with broken := true }
    | .choice i =>
      match st.branches with
      | [] => some (back.push (.choose i st.branch .empty) .atom)
      | [yes] => some (back.push (.choose i yes st.branch) .atom)
      | _ => none

/-- A letter or the underscore, and then letters, digits and underscores. -/
def isIdentifier (name : List Char) : Bool :=
  match name with
  | [] => false
  | c :: _ => name.all (CharSet.isWord false) && !CharSet.isDecimal false c

def nameUntil? (mark : Char) (cs : List Char) : Option (List Char × List Char) :=
  match cs.dropWhile (· ≠ mark) with
  | _ :: r => some (cs.takeWhile (· ≠ mark), r)
  | [] => none

/-- Opens a group that goes by a name, too. -/
def openNamed? (st : State) (name : List Char) : Option State :=
  let n := String.ofList name
  if isIdentifier name ∧ ¬ Assoc.has n st.names then
    some { st.openKept with names := Assoc.put n st.next st.names }
  else none

/-- The number of the group that a choice asks for, by name or by number. -/
def choiceOf? (st : State) (name : List Char) : Option Nat :=
  if isIdentifier name then Assoc.find? (String.ofList name) st.names
  else if name.all Char.isDigit then (number? name).filter (0 < ·)
  else none

def openChoice? (st : State) (name : List Char) : Option State := do
  let i ← st.choiceOf? name
  if st.behindFrom.all fun n => Assoc.has i st.closed && i < n then
    some { st.openGroup (.choice i) st.flags with used := i :: st.used }
  else none

/-- What follows a remark in brackets. An escaped bracket does not end it. -/
def skipRemark? : List Char → Option (List Char)
  | [] => none
  | '\\' :: [] => none
  | '\\' :: _ :: r => skipRemark? r
  | ')' :: r => some r
  | _ :: r => skipRemark? r

/-- What follows a remark at the end of a line. An escaped line feed does not end it. -/
def skipLine? : List Char → Option (List Char)
  | [] => some []
  | '\\' :: [] => none
  | '\\' :: _ :: r => skipLine? r
  | '\n' :: r => some r
  | _ :: r => skipLine? r

/-- What follows the opening bracket of a group. -/
def group? (st : State) : List Char → Option (State × List Char)
  | '?' :: ':' :: r => some (st.openGroup .plain st.flags, r)
  | '?' :: '>' :: r => some (st.openGroup .atomic st.flags, r)
  | '?' :: '=' :: r => some (st.openGroup (.ahead true) st.flags, r)
  | '?' :: '!' :: r => some (st.openGroup (.ahead false) st.flags, r)
  | '?' :: '<' :: '=' :: r => some (st.openGroup (.behind true) st.flags, r)
  | '?' :: '<' :: '!' :: r => some (st.openGroup (.behind false) st.flags, r)
  | '?' :: 'P' :: '<' :: r => do
    let (name, r) ← nameUntil? '>' r
    some (← st.openNamed? name, r)
  | '?' :: 'P' :: '=' :: r => do
    let (name, r) ← nameUntil? ')' r
    let i ← Assoc.find? (String.ofList name) st.names
    some (← st.refer? i, r)
  | '?' :: '(' :: r => do
    let (name, r) ← nameUntil? ')' r
    some (← st.openChoice? name, r)
  | '?' :: '#' :: r => (skipRemark? r).map (st, ·)
  | '?' :: r => do
    let (f, r) ← flagList? r
    if f.grouped then some (st.openGroup .plain (st.flags.inside f.on f.off), r)
    else if st.fresh then some ({ st with flags := st.flags.overall f.on }, r)
    else none
  | r => some (st.openKept, r)

/-- The flags ask both for ASCII and for Unicode. -/
def clashing (st : State) : Bool :=
  st.flags.ascii && st.flags.unicode

/-- A step that fails if the text breaks a rule. -/
def orMalformed {α : Type} : Option α → Except Trouble α
  | some x => .ok x
  | none => .error .malformed

/-- Takes the next part off the text. -/
def step (st : State) : List Char → Except Trouble (State × List Char)
  | [] => .error .malformed
  | '\\' :: r =>
    if r.head?.any fun c => c.isDigit && c != '0' then orMalformed (st.pushNumber? r)
    else orMalformed ((escape? st.flags.ascii r).map fun (e, r) => (st.pushEscaped e, r))
  | '.' :: r => .ok (st.push (.set (if st.flags.dotAll then .all else .notNewline)) .atom, r)
  | '^' :: r =>
    .ok (st.push (.anchor (if st.flags.multiline then .lineStart else .textStart)) .anchor, r)
  | '$' :: r =>
    .ok (st.push (.anchor (if st.flags.multiline then .lineEnd else .lastLineEnd)) .anchor, r)
  | '[' :: r =>
    orMalformed ((set? r).map fun (negated, parts, r) =>
      (st.push (st.setOf negated parts) .atom, r))
  | '*' :: r => st.repeatLast 0 none r
  | '+' :: r => st.repeatLast 1 none r
  | '?' :: r => st.repeatLast 0 (some 1) r
  | '\x7b' :: r =>
    match bounds? r with
    | some (low, high, r') => st.repeatLast (low.getD 0) high r'
    | none => .ok (st.pushPoint 0x7b, r)
  | '|' :: r =>
    .ok ({ st with branches := st.branch :: st.branches, items := [], fresh := false }, r)
  | '(' :: r => orMalformed (st.group? r)
  | ')' :: r =>
    if st.outer.isEmpty ∧ st.clashing then .error .clashingFlags
    else orMalformed (st.closeGroup?.map (·, r))
  | c :: r =>
    if st.flags.verbose ∧ CharSet.isAsciiBlank c then .ok (st, r)
    else if st.flags.verbose ∧ c = '#' then orMalformed ((skipLine? r).map (st, ·))
    else .ok (st.pushPoint c.toNat, r)

/-- The expression that was read. Every group that is referred to is there. -/
def finish (st : State) : Except Trouble Regex :=
  if ¬ st.outer.isEmpty then .error .malformed
  else if st.clashing then .error .clashingFlags
  else if st.broken ∨ st.used.any (st.next ≤ ·) then .error .malformed
  else .ok (st.body.keepOnly st.used)

/-- Reads the rest of an expression; every step takes something off the text. -/
def readFrom (st : State) (cs : List Char) : Except Trouble Regex :=
  if cs.isEmpty then st.finish
  else
    match st.step cs with
    | .ok (st', r) => if r.length < cs.length then readFrom st' r else .error .malformed
    | .error t => .error t
termination_by cs.length

end State

def read (cs : List Char) : Except Trouble Regex :=
  State.readFrom {} cs

end MetaFed.Regex

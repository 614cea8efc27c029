/-
This file is the lexer of `parse.y`: the characters of the configuration file and of the
files it includes, the macros, and the tokens. A byte of a file is the character with its
code. What the lexer says when it fails is left out, and so are the line numbers and the
marks of the macros that were used, which nothing else looks at. A function that loops
gives up when its fuel runs out.
-/

import Ldpd.Types

namespace Ldpd

/-! ### Files and macros -/

/-- `struct file`: what is left to read of it, and whether `errors` is not zero. -/
structure ParseFile where
  name : String
  stream : List Char
  errors : Bool := false
  deriving DecidableEq, Repr

/-- `struct sym`. -/
structure Sym where
  nam : String
  val : String
  persist : Bool
  deriving DecidableEq, Repr

/-- The static variables of the lexer. The innermost file is `file` and the outermost `topfile`.
`parseindex` comes with `parsebuf`, since it means nothing without it, and the character at the head
of `pushback` is the next one. -/
structure Lexer where
  files : List ParseFile := []
  symhead : List Sym := []
  parsebuf : Option (List Char × Int) := none
  pushback : List Char := []
  deriving DecidableEq, Repr

namespace Lexer

/-- `yyerror`. -/
def yyerror (lexer : Lexer) : Lexer :=
  match lexer.files with
  | [] => lexer
  | file :: rest => { lexer with files := { file with errors := true } :: rest }

/-- `symset`. -/
def symset (lexer : Lexer) (nam val : String) (persist : Bool) : Lexer :=
  match lexer.symhead.find? fun sym => sym.nam = nam with
  | some sym =>
    if sym.persist then lexer
    else
      { lexer with
        symhead := lexer.symhead.eraseP (fun sym => sym.nam = nam) ++ [{ nam, val, persist }] }
  | none => { lexer with symhead := lexer.symhead ++ [{ nam, val, persist }] }

/-- `symget`. -/
def symget (lexer : Lexer) (nam : String) : Option String :=
  (lexer.symhead.find? fun sym => sym.nam = nam).map Sym.val

/-! ### Characters -/

/-- `popfile`, when there is a file before this one. -/
def popfile (file prev : ParseFile) : ParseFile :=
  { prev with errors := prev.errors || file.errors }

/-- The end of a file: go on in the one that includes it, unless it is the first one. -/
def nextFile (file : ParseFile) : List ParseFile → Option Char × List ParseFile
  | [] => (none, [file])
  | prev :: rest =>
    match prev.stream with
    | c :: stream => (some c, { popfile file prev with stream } :: rest)
    | [] => nextFile (popfile file prev) rest

/-- The next character of a file, with a backslash and what follows it taken together. -/
def getEscaped : List Char → Option Char × List Char
  | '\\' :: '\n' :: rest => getEscaped rest
  | '\\' :: next :: rest => (some next, rest)
  | ['\\'] => (none, [])
  | c :: rest => (some c, rest)
  | [] => (none, [])

/-- The part of `lgetc` that reads from a file. -/
def getFile (lexer : Lexer) (quotec : Option Char) : Option Char × Lexer :=
  match lexer.files with
  | [] => (none, lexer)
  | file :: rest =>
    match quotec with
    | some quote =>
      match file.stream, rest with
      | c :: stream, _ => (some c, { lexer with files := { file with stream } :: rest })
      -- reached end of file while parsing quoted string
      | [], [] => (none, lexer.yyerror)
      | [], prev :: rest =>
        (some quote, { lexer with files := popfile { file with errors := true } prev :: rest })
    | none =>
      match getEscaped file.stream with
      | (some c, stream) => (some c, { lexer with files := { file with stream } :: rest })
      | (none, stream) =>
        let next := nextFile { file with stream } rest
        (next.1, { lexer with files := next.2 })

/-- The part of `lgetc` that reads from the value of a macro, which a zero byte would end. -/
def getMacro (lexer : Lexer) : Option Char × Lexer :=
  match lexer.parsebuf with
  | none => (none, lexer)
  | some (buf, parseindex) =>
    if 0 ≤ parseindex then
      match buf[parseindex.toNat]?.filter (· != '\x00') with
      | some c => (some c, { lexer with parsebuf := some (buf, parseindex + 1) })
      | none => (none, { lexer with parsebuf := none })
    else (none, { lexer with parsebuf := some (buf, parseindex + 1) })

/-- `lgetc`. -/
def lgetc (lexer : Lexer) (quotec : Option Char) : Option Char × Lexer :=
  match lexer.getMacro with
  | (some c, lexer) => (some c, lexer)
  | (none, lexer) =>
    match lexer.pushback with
    | c :: rest => (some c, { lexer with pushback := rest })
    | [] => lexer.getFile quotec

/-- The part of `lungetc` that is about the pushback buffer. -/
def pushBack (lexer : Lexer) (c : Char) : Lexer :=
  if lexer.pushback.length < 127 then { lexer with pushback := c :: lexer.pushback } else lexer

/-- `lungetc`. -/
def lungetc (lexer : Lexer) : Option Char → Lexer
  | none => lexer
  | some c =>
    match lexer.parsebuf with
    | none => lexer.pushBack c
    | some (buf, parseindex) =>
      let lexer := { lexer with parsebuf := some (buf, parseindex - 1) }
      if 0 ≤ parseindex - 1 then lexer else lexer.pushBack c

end Lexer

/-! ### Tokens -/

inductive Keyword where
  | addressFamily | bridge | controlWord | dsCiscoInterop | ethernet | ethernetTagged | explicitNull
  | fibUpdate | gtsmEnable | gtsmHops | includeFile | interface | ipv4 | ipv6 | keepalive | l2vpn
  | linkHelloHoldtime | linkHelloInterval | mtu | neighbor | neighborAddr | neighborId | no
  | password | pseudowire | pwId | pwType | routerId | statusTlv | targetedHelloAccept
  | targetedHelloHoldtime | targetedHelloInterval | targetedNeighbor | transportAddress
  | transportPreference | type | vpls | yes
  deriving DecidableEq, Repr

/-- The table of `lookup`. -/
def keywords : List (String × Keyword) :=
  [("address-family", .addressFamily), ("bridge", .bridge), ("control-word", .controlWord),
    ("ds-cisco-interop", .dsCiscoInterop), ("ethernet", .ethernet),
    ("ethernet-tagged", .ethernetTagged), ("explicit-null", .explicitNull),
    ("fib-update", .fibUpdate), ("gtsm-enable", .gtsmEnable), ("gtsm-hops", .gtsmHops),
    ("include", .includeFile), ("interface", .interface), ("ipv4", .ipv4), ("ipv6", .ipv6),
    ("keepalive", .keepalive), ("l2vpn", .l2vpn), ("link-hello-holdtime", .linkHelloHoldtime),
    ("link-hello-interval", .linkHelloInterval), ("mtu", .mtu), ("neighbor", .neighbor),
    ("neighbor-addr", .neighborAddr), ("neighbor-id", .neighborId), ("no", .no),
    ("password", .password), ("pseudowire", .pseudowire), ("pw-id", .pwId), ("pw-type", .pwType),
    ("router-id", .routerId), ("status-tlv", .statusTlv),
    ("targeted-hello-accept", .targetedHelloAccept),
    ("targeted-hello-holdtime", .targetedHelloHoldtime),
    ("targeted-hello-interval", .targetedHelloInterval),
    ("targeted-neighbor", .targetedNeighbor), ("transport-address", .transportAddress),
    ("transport-preference", .transportPreference), ("type", .type), ("vpls", .vpls),
    ("yes", .yes)]

/-- A token with its value. A character that is no part of any other token is one of its own, except for
a zero byte, which is the end of the input for the parser. `error` is what the lexer returns when it has
failed. -/
inductive Token where
  | eof
  | error
  | char (c : Char)
  | string (text : String)
  | number (value : Int)
  | keyword (keyword : Keyword)
  deriving DecidableEq, Repr

/-- `lookup`. -/
def lookupKeyword (text : String) : Token :=
  match keywords.find? fun entry => entry.1 = text with
  | some entry => .keyword entry.2
  | none => .string text

/-- `isspace`. -/
def isSpace (c : Char) : Bool :=
  c = ' ' || (9 ≤ c.toNat && c.toNat ≤ 13)

/-- `ispunct`. -/
def isPunct (c : Char) : Bool :=
  33 ≤ c.toNat && c.toNat ≤ 126 && !c.isAlphanum

/-- `allowed_to_end_number`. -/
def allowedToEndNumber (c : Char) : Bool :=
  isSpace c || c = ')' || c = ',' || c = '/' || c = '\x7d' || c = '='

/-- `allowed_in_string`. -/
def allowedInString (c : Char) : Bool :=
  c.isAlphanum || (isPunct c && c != '(' && c != ')' && c != '\x7b' && c != '\x7d' && c != '!' &&
    c != '=' && c != '#' && c != ',')

/-- `strtonum` with the bounds of a `long long`. -/
def strtonum (text : List Char) : Option Int :=
  let value (digits : List Char) : Int :=
    digits.foldl (fun value digit => 10 * value + (digit.toNat - '0'.toNat)) 0
  let value := match text with
    | '-' :: digits => -value digits
    | digits => value digits
  if -2 ^ 63 ≤ value ∧ value < 2 ^ 63 then some value else none

namespace Lexer

/-- The loops that skip characters: the lexer after the first other one, and that one. -/
def skipWhile (skipped : Char → Bool) : Nat → Lexer → Option (Option Char × Lexer)
  | 0, _ => none
  | fuel + 1, lexer =>
    match lexer.lgetc none with
    | (some c, lexer) => if skipped c then skipWhile skipped fuel lexer else some (some c, lexer)
    | (none, lexer) => some (none, lexer)

/-- `findeol`. -/
def findeol (fuel : Nat) (lexer : Lexer) : Option (Token × Lexer) :=
  (skipWhile (fun c => c != '\n') fuel { lexer with parsebuf := none }).map fun found =>
    (.error, found.2)

/-- `yyerror` and `findeol`. -/
def fail (fuel : Nat) (lexer : Lexer) : Option (Token × Lexer) :=
  findeol fuel lexer.yyerror

/-- The loop that reads the characters of a word: those in the buffer, the first last, and the one
that ended it. There is no result when the buffer is full. -/
def readWord (member : Char → Bool) :
    Nat → List Char → Lexer → Option (Option (List Char × Option Char) × Lexer)
  | 0, _, _ => none
  | fuel + 1, buf, lexer =>
    if 8096 ≤ buf.length then some (none, lexer)
    else
      match lexer.lgetc none with
      | (some c, lexer) =>
        if member c then readWord member fuel (c :: buf) lexer else some (some (buf, some c), lexer)
      | (none, lexer) => some (some (buf, none), lexer)

/-- The loop that reads the name of a macro. -/
def readName : Nat → List Char → Lexer → Option (Option (List Char × Option Char) × Lexer)
  | 0, _, _ => none
  | fuel + 1, buf, lexer =>
    match lexer.lgetc none with
    | (none, lexer) => some (some (buf, none), lexer)
    | (some c, lexer) =>
      if 8094 ≤ buf.length then some (none, lexer)
      else if c.isAlphanum || c = '_' then readName fuel (c :: buf) lexer
      else some (some (buf, some c), lexer)

/-- The loop that reads a quoted string. -/
def readQuoted (quote : Char) : Nat → List Char → Lexer → Option (Token × Lexer)
  | 0, _, _ => none
  | fuel + 1, buf, lexer =>
    -- the end of the loop: a character goes into the buffer
    let store (c : Char) (lexer : Lexer) : Option (Token × Lexer) :=
      if 8094 ≤ buf.length then lexer.fail fuel else readQuoted quote fuel (c :: buf) lexer
    match lexer.lgetc quote with
    | (none, lexer) => some (.eof, lexer)
    | (some c, lexer) =>
      if c = '\n' then readQuoted quote fuel buf lexer
      else if c = '\\' then
        match lexer.lgetc quote with
        | (none, lexer) => some (.eof, lexer)
        | (some next, lexer) =>
          if next = quote then store next lexer
          else if next = '\n' then readQuoted quote fuel buf lexer
          else store c (lexer.lungetc next)
      else if c = quote then some (.string (String.ofList buf.reverse), lexer)
      else if c = '\x00' then lexer.fail fuel
      else store c lexer

/-- The end of `yylex`: a word, or a character of its own. The parser takes a zero byte for the end of
the input. -/
def lexWord (fuel : Nat) (c : Char) (lexer : Lexer) : Option (Token × Lexer) :=
  if c.isAlphanum || c = ':' || c = '_' then
    match readWord allowedInString fuel [c] lexer with
    | none => none
    | some (none, lexer) => lexer.fail fuel
    | some (some (buf, stop), lexer) =>
      some (lookupKeyword (String.ofList buf.reverse), lexer.lungetc stop)
  else some (if c = '\x00' then .eof else .char c, lexer)

/-- The part of `yylex` about numbers. -/
def lexNumber (fuel : Nat) (c : Char) (lexer : Lexer) : Option (Token × Lexer) :=
  if c = '-' || c.isDigit then
    match readWord Char.isDigit fuel [c] lexer with
    | none => none
    | some (none, lexer) => lexer.fail fuel
    | some (some (buf, stop), lexer) =>
      let lexer := lexer.lungetc stop
      if buf != ['-'] && stop.all allowedToEndNumber then
        match strtonum buf.reverse with
        | some value => some (.number value, lexer)
        | none => lexer.fail fuel
      else
        -- no number after all: all but the first character are read again
        let lexer := (buf.take (buf.length - 1)).foldl (fun lexer c => lexer.lungetc (some c)) lexer
        if c = '-' then some (.char c, lexer) else lexWord fuel c lexer
  else lexWord fuel c lexer

/-- `yylex`. -/
def yylex : Nat → Lexer → Option (Token × Lexer)
  | 0, _ => none
  | fuel + 1, lexer =>
    match skipWhile (fun c => c = ' ' || c = '\t') fuel lexer with
    | none => none
    | some (c, lexer) =>
      match if c = some '#' then skipWhile (fun c => c != '\n') fuel lexer else some (c, lexer) with
      | none => none
      | some (none, lexer) => some (.eof, lexer)
      | some (some c, lexer) =>
        if c = '$' && lexer.parsebuf.isNone then
          match readName fuel [] lexer with
          | none => none
          | some (none, lexer) => lexer.fail fuel
          | some (some (_, none), lexer) => some (.eof, lexer)
          | some (some (buf, some stop), lexer) =>
            let lexer := lexer.lungetc stop
            match lexer.symget (String.ofList buf.reverse) with
            | none => lexer.fail fuel
            | some val => yylex fuel { lexer with parsebuf := some (val.toList, 0) }
        else if c = '\x27' || c = '\x22' then readQuoted c fuel [] lexer
        else lexNumber fuel c lexer

end Lexer

/-! ### What the lexer keeps -/

namespace Lexer

/-- There has been an error in a file that is still open. -/
def Failed (lexer : Lexer) : Prop :=
  ∃ file ∈ lexer.files, file.errors

/-- Reading changes no macro, forgets no error and leaves a file open. -/
structure Kept (before after : Lexer) : Prop where
  symhead : after.symhead = before.symhead
  failed : before.Failed → after.Failed
  opened : before.files ≠ [] → after.files ≠ []

/-- So many characters of the macro that is being read can be read again, and behind a zero byte that
can be read again there is nothing but the file. -/
structure Ahead (lexer : Lexer) (many : Nat) : Prop where
  index : ∀ buf index, lexer.parsebuf = some (buf, index) → (many : Int) ≤ index
  zero : '\x00' ∉ lexer.pushback.dropLast

/-- Only files are left to read. -/
structure AtEnd (lexer : Lexer) : Prop where
  parsebuf : lexer.parsebuf = none
  pushback : lexer.pushback = []

variable {lexer lexer' : Lexer} {c : Char} {quotec stop : Option Char} {fuel many : Nat}

theorem Kept.refl (lexer : Lexer) : Kept lexer lexer := ⟨rfl, id, id⟩

theorem Kept.trans {first second third : Lexer} (one : Kept first second) (two : Kept second third) :
    Kept first third :=
  ⟨two.symhead.trans one.symhead, two.failed ∘ one.failed, two.opened ∘ one.opened⟩

theorem Ahead.less (ahead : lexer.Ahead many) {fewer : Nat} (less : fewer ≤ many) :
    lexer.Ahead fewer :=
  ⟨fun buf index reading => (Int.ofNat_le.mpr less).trans (ahead.index buf index reading), ahead.zero⟩

theorem ahead_of_none (none' : lexer.parsebuf = none) (zero : '\x00' ∉ lexer.pushback.dropLast)
    (many : Nat) : lexer.Ahead many := by
  refine ⟨fun buf index reading => ?_, zero⟩
  rw [none'] at reading
  cases reading

/-- Files do not matter for what can be read again. -/
theorem Ahead.congr (ahead : lexer.Ahead many) (parsebuf : lexer'.parsebuf = lexer.parsebuf)
    (pushback : lexer'.pushback = lexer.pushback) : lexer'.Ahead many := by
  refine ⟨?_, ?_⟩
  · rw [parsebuf]
    exact ahead.index
  · rw [pushback]
    exact ahead.zero

theorem Kept.files {files : List ParseFile}
    (failed : lexer.Failed → ∃ file ∈ files, file.errors) (opened : files ≠ []) :
    Kept lexer { lexer with files } :=
  ⟨rfl, failed, fun _ => opened⟩

theorem Kept.same (symhead : lexer'.symhead = lexer.symhead) (files : lexer'.files = lexer.files) :
    Kept lexer lexer' := by
  refine ⟨symhead, ?_, ?_⟩
  · rw [Failed, Failed, files]
    exact id
  · rw [files]
    exact id

theorem kept_yyerror (lexer : Lexer) : Kept lexer lexer.yyerror := by
  rw [yyerror]
  split
  · exact .refl lexer
  · exact .files (fun _ => ⟨_, List.mem_cons_self, rfl⟩) (List.cons_ne_nil _ _)

theorem failed_yyerror (opened : lexer.files ≠ []) : lexer.yyerror.Failed := by
  rw [yyerror]
  split
  · contradiction
  · exact ⟨_, List.mem_cons_self, rfl⟩

@[simp]
theorem parsebuf_yyerror (lexer : Lexer) : lexer.yyerror.parsebuf = lexer.parsebuf := by
  rw [yyerror]
  split <;> rfl

@[simp]
theorem pushback_yyerror (lexer : Lexer) : lexer.yyerror.pushback = lexer.pushback := by
  rw [yyerror]
  split <;> rfl

theorem failed_nextFile {file : ParseFile} {rest : List ParseFile}
    (failed : ∃ other ∈ file :: rest, other.errors) : ∃ other ∈ (nextFile file rest).2, other.errors := by
  induction rest generalizing file with
  | nil => exact failed
  | cons prev rest inductionHypothesis =>
    have popped : ∃ other ∈ popfile file prev :: rest, other.errors := by
      obtain ⟨other, member, errors⟩ := failed
      simp only [List.mem_cons] at member
      rcases member with rfl | rfl | member
      · exact ⟨_, List.mem_cons_self, by simp [popfile, errors]⟩
      · exact ⟨_, List.mem_cons_self, by simp [popfile, errors]⟩
      · exact ⟨other, List.mem_cons_of_mem _ member, errors⟩
    rw [nextFile]
    split
    · obtain ⟨other, member, errors⟩ := popped
      rcases List.mem_cons.mp member with rfl | member
      · exact ⟨_, List.mem_cons_self, errors⟩
      · exact ⟨other, List.mem_cons_of_mem _ member, errors⟩
    · exact inductionHypothesis popped

theorem nextFile_ne_nil (file : ParseFile) (rest : List ParseFile) : (nextFile file rest).2 ≠ [] := by
  induction rest generalizing file with
  | nil => exact List.cons_ne_nil _ _
  | cons prev rest inductionHypothesis =>
    rw [nextFile]
    split
    · exact List.cons_ne_nil _ _
    · exact inductionHypothesis _

/-- Reading from a file changes the files and nothing else. -/
theorem getFile_eq (lexer : Lexer) (quotec : Option Char) :
    ∃ files, (lexer.getFile quotec).2 = { lexer with files } ∧ Kept lexer { lexer with files } := by
  have same {file : ParseFile} {rest : List ParseFile} (files : lexer.files = file :: rest)
      (stream : List Char) : Kept lexer { lexer with files := { file with stream } :: rest } := by
    refine .files (fun failed => ?_) (List.cons_ne_nil _ _)
    obtain ⟨other, member, errors⟩ := failed
    rw [files] at member
    rcases List.mem_cons.mp member with rfl | member
    · exact ⟨_, List.mem_cons_self, errors⟩
    · exact ⟨other, List.mem_cons_of_mem _ member, errors⟩
  rw [getFile]
  split
  · rename_i files
    exact ⟨[], by rw [← files], by rw [← files]; exact .refl lexer⟩
  · rename_i file rest files
    split
    · split
      · exact ⟨_, rfl, same files _⟩
      · refine ⟨[{ file with errors := true }], ?_, ?_⟩
        · rw [yyerror, files]
        · exact .files (fun _ => ⟨_, List.mem_cons_self, rfl⟩) (List.cons_ne_nil _ _)
      · refine ⟨_, rfl, ?_⟩
        exact .files (fun _ => ⟨_, List.mem_cons_self, by simp [popfile]⟩) (List.cons_ne_nil _ _)
    · split
      · exact ⟨_, rfl, same files _⟩
      · rename_i stream _
        refine ⟨_, rfl, ?_⟩
        refine .files (fun failed => failed_nextFile ?_) (nextFile_ne_nil _ _)
        exact (same files stream).failed failed

/-! ### What the lexer reads -/

/-- There is no character, or a zero byte. -/
def Ends (c : Option Char) : Prop :=
  c = none ∨ c = some '\x00'

/-- A character that has been read: with those before it, it can be read again, and where the input ends
only files are left. -/
structure Got (many : Nat) (before : Lexer) (c : Option Char) (after : Lexer) : Prop where
  kept : Kept before after
  ahead : after.Ahead many
  ended : Ends c → after.AtEnd

/-- A token that has been read. -/
structure Lexed (before : Lexer) (token : Token) (after : Lexer) : Prop where
  kept : Kept before after
  ahead : after.Ahead 1
  ended : token = .eof → after.AtEnd

theorem Got.after {first second third : Lexer} {c : Option Char} (two : Got many second c third)
    (one : Kept first second) : Got many first c third :=
  ⟨one.trans two.kept, two.ahead, two.ended⟩

theorem Lexed.after {first second third : Lexer} {token : Token} (two : Lexed second token third)
    (one : Kept first second) : Lexed first token third :=
  ⟨one.trans two.kept, two.ahead, two.ended⟩

/-- What is read where no macro is. A zero byte comes from a file, or was pushed back first. -/
theorem got_outside (none' : lexer.parsebuf = none) (zero : '\x00' ∉ lexer.pushback.dropLast)
    (quotec : Option Char) (many : Nat) :
    Got many lexer (lexer.lgetc quotec).1 (lexer.lgetc quotec).2 := by
  rw [lgetc, getMacro, none']
  dsimp only
  cases pushback : lexer.pushback with
  | cons c rest =>
    rw [pushback] at zero
    have left (zero : '\x00' ∉ rest.dropLast) : Ahead { lexer with pushback := rest } many := by
      refine ahead_of_none ?_ ?_ many
      · exact none'
      · exact zero
    cases rest with
    | nil => exact ⟨.same rfl rfl, left List.not_mem_nil, fun _ => ⟨none', rfl⟩⟩
    | cons next rest =>
      rw [List.dropLast_cons_cons, List.mem_cons, not_or] at zero
      refine ⟨.same rfl rfl, left zero.2, fun ended => ?_⟩
      rcases ended with ended | ended
      · cases ended
      · exact absurd (Option.some.inj ended).symm zero.1
  | nil =>
    obtain ⟨files, read, kept⟩ := getFile_eq lexer quotec
    have left : Ahead { lexer with files } many := (ahead_of_none none' zero many).congr rfl rfl
    dsimp only
    rw [read]
    exact ⟨kept, left, fun _ => ⟨none', pushback⟩⟩

/-- What is read can be read again later. -/
theorem got_lgetc (ahead : lexer.Ahead many) (quotec : Option Char) :
    Got (many + 1) lexer (lexer.lgetc quotec).1 (lexer.lgetc quotec).2 := by
  cases parsebuf : lexer.parsebuf with
  | none => exact got_outside parsebuf ahead.zero quotec (many + 1)
  | some both =>
    obtain ⟨buf, index⟩ := both
    have enough := ahead.index buf index parsebuf
    cases stored : buf[index.toNat]?.filter (· != '\x00') with
    | none =>
      have same : lexer.lgetc quotec = { lexer with parsebuf := none }.lgetc quotec := by
        rw [lgetc, getMacro, parsebuf]
        dsimp only
        rw [if_pos ((Int.natCast_nonneg many).trans enough), stored]
        rfl
      rw [same]
      have closed : Kept lexer { lexer with parsebuf := none } := .same rfl rfl
      have zero : '\x00' ∉ ({ lexer with parsebuf := none } : Lexer).pushback.dropLast := ahead.zero
      exact (got_outside rfl zero quotec (many + 1)).after closed
    | some c =>
      have same : lexer.lgetc quotec = (some c, { lexer with parsebuf := some (buf, index + 1) }) := by
        rw [lgetc, getMacro, parsebuf]
        dsimp only
        rw [if_pos ((Int.natCast_nonneg many).trans enough), stored]
      rw [same]
      refine ⟨.same rfl rfl, ⟨fun buf' index' reading => ?_, ahead.zero⟩, fun ended => ?_⟩
      · cases reading
        exact_mod_cast Int.add_le_add_right enough 1
      · rcases ended with ended | ended
        · cases ended
        · cases ended
          exact absurd (Option.filter_eq_some_iff.mp stored).2 (by decide)

theorem kept_lungetc (lexer : Lexer) (c : Option Char) : Kept lexer (lexer.lungetc c) := by
  have pushed (lexer : Lexer) (c : Char) : Kept lexer (lexer.pushBack c) := by
    rw [pushBack]
    split <;> exact .same rfl rfl
  rw [lungetc.eq_def]
  split
  · exact .refl lexer
  · split
    · exact pushed ..
    · rename_i buf parseindex _
      have moved : Kept lexer { lexer with parsebuf := some (buf, parseindex - 1) } := .same rfl rfl
      dsimp only
      split
      · exact moved
      · exact moved.trans (pushed ..)

theorem parsebuf_pushBack (lexer : Lexer) (c : Char) : (lexer.pushBack c).parsebuf = lexer.parsebuf := by
  rw [pushBack]
  split <;> rfl

theorem zero_pushBack (zero : '\x00' ∉ lexer.pushback.dropLast)
    (last : c = '\x00' → lexer.pushback = []) : '\x00' ∉ (lexer.pushBack c).pushback.dropLast := by
  rw [pushBack]
  split
  · intro member
    cases pushback : lexer.pushback with
    | nil =>
      rw [pushback] at member
      cases member
    | cons next rest =>
      rw [pushback] at member zero last
      rcases List.mem_cons.mp member with same | member
      · cases last same.symm
      · exact zero member
  · exact zero

/-- One character less can be read again after one has been given back. -/
theorem ahead_lungetc (ahead : lexer.Ahead (many + 1)) (last : stop = some '\x00' → lexer.AtEnd) :
    (lexer.lungetc stop).Ahead many := by
  cases stop with
  | none => exact ahead.less (Nat.le_succ many)
  | some c =>
    rw [lungetc]
    split
    · rename_i none'
      refine ahead_of_none ((parsebuf_pushBack ..).trans none') (zero_pushBack ahead.zero ?_) many
      exact fun zero => (last (congrArg some zero)).pushback
    · rename_i buf index parsebuf
      have enough := ahead.index buf index parsebuf
      have left : (many : Int) ≤ index - 1 := by
        push_cast at enough
        exact Int.le_sub_right_of_add_le enough
      dsimp only
      rw [if_pos ((Int.natCast_nonneg many).trans left)]
      refine ⟨fun buf' index' reading => ?_, ahead.zero⟩
      cases reading
      exact left

/-! ### What the lexer makes of it -/

theorem got_skipWhile {skipped : Char → Bool} {c : Option Char} (ahead : lexer.Ahead many)
    (found : skipWhile skipped fuel lexer = some (c, lexer')) : Got (many + 1) lexer c lexer' := by
  induction fuel generalizing lexer with
  | zero => cases found
  | succ fuel inductionHypothesis =>
    have got := got_lgetc ahead none
    rw [skipWhile] at found
    generalize lexer.lgetc none = read at found got
    obtain ⟨next, after⟩ := read
    cases next with
    | none =>
      cases found
      exact got
    | some next =>
      dsimp only at found
      split at found
      · exact (inductionHypothesis (got.ahead.less (Nat.le_succ many)) found).after got.kept
      · cases found
        exact got

theorem lexed_findeol {token : Token} (ahead : lexer.Ahead many)
    (found : findeol fuel lexer = some (token, lexer')) : Lexed lexer token lexer' := by
  have closed : Kept lexer { lexer with parsebuf := none } := .same rfl rfl
  obtain ⟨both, skipped, eq⟩ := Option.map_eq_some_iff.mp found
  cases eq
  have outside : Ahead { lexer with parsebuf := none } 0 := by
    refine ahead_of_none ?_ ?_ 0
    · rfl
    · exact ahead.zero
  have got := (got_skipWhile outside skipped).after closed
  exact ⟨got.kept, got.ahead, fun eof => by cases eof⟩

theorem lexed_fail {token : Token} (ahead : lexer.Ahead many)
    (found : fail fuel lexer = some (token, lexer')) : Lexed lexer token lexer' :=
  (lexed_findeol (ahead.congr (parsebuf_yyerror lexer) (pushback_yyerror lexer)) found).after
    (kept_yyerror lexer)

/-- All characters of a word, and the one after it, can be given back. -/
theorem readWord_cases {member : Char → Bool} {buf : List Char}
    {word : Option (List Char × Option Char)} (ahead : lexer.Ahead many)
    (found : readWord member fuel buf lexer = some (word, lexer')) :
    Kept lexer lexer' ∧ lexer'.Ahead many ∧ ∀ buf' stop, word = some (buf', stop) →
      (∃ more, buf' = more ++ buf ∧ (∀ c ∈ more, member c = true) ∧
        lexer'.Ahead (many + more.length + 1)) ∧ (Ends stop → lexer'.AtEnd) := by
  induction fuel generalizing lexer buf many with
  | zero => cases found
  | succ fuel inductionHypothesis =>
    rw [readWord] at found
    split at found
    · cases found
      exact ⟨.refl _, ahead, fun buf' stop filled => by cases filled⟩
    · have got := got_lgetc ahead none
      generalize lexer.lgetc none = read at found got
      obtain ⟨next, after⟩ := read
      have ends : Kept lexer after ∧ after.Ahead many ∧ ∀ buf' stop, some (buf, next) = some (buf', stop) →
          (∃ more, buf' = more ++ buf ∧ (∀ c ∈ more, member c = true) ∧
            after.Ahead (many + more.length + 1)) ∧ (Ends stop → after.AtEnd) := by
        refine ⟨got.kept, got.ahead.less (Nat.le_succ many), fun buf' stop same => ?_⟩
        cases same
        exact ⟨⟨[], rfl, fun c none' => absurd none' List.not_mem_nil, got.ahead⟩, got.ended⟩
      cases next with
      | none =>
        cases found
        exact ends
      | some next =>
        dsimp only at found
        split at found
        · rename_i belongs
          obtain ⟨kept, ahead', rest⟩ := inductionHypothesis got.ahead found
          refine ⟨got.kept.trans kept, ahead'.less (Nat.le_succ many), fun buf' stop filled => ?_⟩
          obtain ⟨⟨more, longer, members, further⟩, ended⟩ := rest buf' stop filled
          refine ⟨⟨more ++ [next], ?_, fun c there => ?_, further.less ?_⟩, ended⟩
          · rw [longer, List.append_assoc]
            rfl
          · rcases List.mem_append.mp there with there | there
            · exact members c there
            · rw [List.mem_singleton.mp there]
              exact belongs
          · rw [List.length_append, List.length_singleton]
            omega
        · cases found
          exact ends

theorem readName_cases {buf : List Char} {word : Option (List Char × Option Char)}
    (ahead : lexer.Ahead many) (found : readName fuel buf lexer = some (word, lexer')) :
    Kept lexer lexer' ∧ lexer'.Ahead (many + 1) ∧
      ∀ buf' stop, word = some (buf', stop) → Ends stop → lexer'.AtEnd := by
  induction fuel generalizing lexer buf with
  | zero => cases found
  | succ fuel inductionHypothesis =>
    have got := got_lgetc ahead none
    rw [readName] at found
    generalize lexer.lgetc none = read at found got
    obtain ⟨next, after⟩ := read
    have ends : ∀ buf' stop, some (buf, next) = some (buf', stop) → Ends stop → after.AtEnd := by
      rintro buf' stop ⟨⟩
      exact got.ended
    cases next with
    | none =>
      cases found
      exact ⟨got.kept, got.ahead, ends⟩
    | some next =>
      dsimp only at found
      split at found
      · cases found
        exact ⟨got.kept, got.ahead, fun _ _ same => by cases same⟩
      · split at found
        · obtain ⟨kept, rest⟩ := inductionHypothesis (got.ahead.less (Nat.le_succ many)) found
          exact ⟨got.kept.trans kept, rest⟩
        · cases found
          exact ⟨got.kept, got.ahead, ends⟩

theorem lexed_readQuoted {quote : Char} {buf : List Char} {token : Token} (ahead : lexer.Ahead 0)
    (found : readQuoted quote fuel buf lexer = some (token, lexer')) :
    Lexed lexer token lexer' := by
  induction fuel generalizing lexer buf with
  | zero => cases found
  | succ fuel inductionHypothesis =>
    -- a character goes into the buffer, or the buffer is full
    have stored {c : Char} {between : Lexer} (ahead : between.Ahead 0)
        (found : (if 8094 ≤ buf.length then between.fail fuel
          else readQuoted quote fuel (c :: buf) between) = some (token, lexer')) :
        Lexed between token lexer' := by
      split at found
      · exact lexed_fail ahead found
      · exact inductionHypothesis ahead found
    have got := got_lgetc ahead quote
    rw [readQuoted] at found
    generalize lexer.lgetc (some quote) = read at found got
    obtain ⟨c, after⟩ := read
    have less := got.ahead.less (Nat.zero_le 1)
    cases c with
    | none =>
      cases found
      exact ⟨got.kept, got.ahead, fun _ => got.ended (.inl rfl)⟩
    | some c =>
      dsimp only at found
      split at found
      · exact (inductionHypothesis less found).after got.kept
      split at found
      · have got' := got_lgetc less quote
        generalize after.lgetc (some quote) = read' at found got'
        obtain ⟨next, after'⟩ := read'
        have kept := got.kept.trans got'.kept
        have less' := got'.ahead.less (Nat.zero_le 1)
        cases next with
        | none =>
          cases found
          exact ⟨kept, got'.ahead, fun _ => got'.ended (.inl rfl)⟩
        | some next =>
          dsimp only at found
          split at found
          · exact (stored less' found).after kept
          split at found
          · exact (inductionHypothesis less' found).after kept
          · have given := ahead_lungetc got'.ahead fun zero => got'.ended (.inr zero)
            exact (stored given found).after (kept.trans (kept_lungetc after' _))
      split at found
      · cases found
        exact ⟨got.kept, got.ahead, fun eof => by cases eof⟩
      split at found
      · exact (lexed_fail less found).after got.kept
      · exact (stored less found).after got.kept

theorem lookupKeyword_ne_eof (text : String) : lookupKeyword text ≠ .eof := by
  rw [lookupKeyword]
  split <;> exact Token.noConfusion

theorem lexed_lexWord {token : Token} (ahead : lexer.Ahead 1) (ended : c = '\x00' → lexer.AtEnd)
    (found : lexWord fuel c lexer = some (token, lexer')) : Lexed lexer token lexer' := by
  rw [lexWord] at found
  split at found
  · split at found
    · cases found
    · rename_i after read
      obtain ⟨kept, ahead', -⟩ := readWord_cases ahead read
      exact (lexed_fail ahead' found).after kept
    · rename_i buf stop after read
      obtain ⟨kept, -, rest⟩ := readWord_cases ahead read
      obtain ⟨⟨more, -, -, ahead'⟩, ended⟩ := rest buf stop rfl
      cases found
      refine ⟨kept.trans (kept_lungetc after stop), ?_, fun eof => ?_⟩
      · exact ahead_lungetc (ahead'.less (by omega)) fun zero => ended (.inr zero)
      · exact absurd eof (lookupKeyword_ne_eof _)
  · cases found
    refine ⟨.refl _, ahead, fun eof => ended ?_⟩
    by_contra other
    rw [if_neg other] at eof
    cases eof

/-- Characters that are no zero bytes are given back. -/
theorem foldl_lungetc {buf : List Char} (ahead : lexer.Ahead (many + buf.length))
    (zero : '\x00' ∉ buf) :
    Kept lexer (buf.foldl (fun lexer c => lexer.lungetc (some c)) lexer) ∧
      (buf.foldl (fun lexer c => lexer.lungetc (some c)) lexer).Ahead many := by
  induction buf generalizing lexer with
  | nil => exact ⟨.refl lexer, ahead⟩
  | cons c rest inductionHypothesis =>
    obtain ⟨first, others⟩ := not_or.mp (List.mem_cons.not.mp zero)
    have given : (lexer.lungetc (some c)).Ahead (many + rest.length) :=
      ahead_lungetc ahead fun same => absurd (Option.some.inj same).symm first
    obtain ⟨kept, ahead'⟩ := inductionHypothesis given others
    exact ⟨(kept_lungetc lexer (some c)).trans kept, ahead'⟩

theorem lexed_lexNumber {token : Token} (ahead : lexer.Ahead 1) (ended : c = '\x00' → lexer.AtEnd)
    (found : lexNumber fuel c lexer = some (token, lexer')) : Lexed lexer token lexer' := by
  rw [lexNumber] at found
  split at found
  · rename_i first
    have zero : c ≠ '\x00' := by
      rintro rfl
      exact absurd first (by decide)
    split at found
    · cases found
    · rename_i after read
      obtain ⟨kept, ahead', -⟩ := readWord_cases ahead read
      exact (lexed_fail ahead' found).after kept
    · rename_i buf stop after read
      obtain ⟨kept, -, rest⟩ := readWord_cases ahead read
      obtain ⟨⟨more, rfl, digits, ahead'⟩, ended'⟩ := rest buf stop rfl
      have given := kept.trans (kept_lungetc after stop)
      have ahead'' : (after.lungetc stop).Ahead (1 + more.length) :=
        ahead_lungetc ahead' fun zero => ended' (.inr zero)
      have taken : (more ++ [c]).take ((more ++ [c]).length - 1) = more := by
        rw [List.length_append, List.length_singleton, Nat.add_sub_cancel, List.take_left]
      have zeros : '\x00' ∉ more := fun there => absurd (digits _ there) (by decide)
      obtain ⟨kept', all⟩ := foldl_lungetc ahead'' zeros
      dsimp only at found
      split at found
      · split at found
        · cases found
          exact ⟨given, ahead''.less (Nat.le_add_right 1 _), fun eof => by cases eof⟩
        · exact (lexed_fail ahead'' found).after given
      · rw [taken] at found
        split at found
        · cases found
          exact ⟨given.trans kept', all, fun eof => by cases eof⟩
        · exact (lexed_lexWord all (absurd · zero) found).after (given.trans kept')
  · exact lexed_lexWord ahead ended found

/-- What `yylex` reads: no error is forgotten, and only files are left at the end of the input. -/
theorem lexed_yylex {token : Token} (ahead : lexer.Ahead 0)
    (found : yylex fuel lexer = some (token, lexer')) : Lexed lexer token lexer' := by
  induction fuel generalizing lexer with
  | zero => cases found
  | succ fuel inductionHypothesis =>
    rw [yylex] at found
    split at found
    · cases found
    rename_i first after skipped
    have got := got_skipWhile ahead skipped
    have commented {c : Option Char} {after' : Lexer} (comment : (if first = some '#' then
        skipWhile (fun c => c != '\n') fuel after else some (first, after)) = some (c, after')) :
        Got 1 lexer c after' := by
      split at comment
      · have got' := got_skipWhile (got.ahead.less (Nat.zero_le 1)) comment
        exact got'.after got.kept
      · cases comment
        exact got
    split at found
    · cases found
    · rename_i after' comment
      cases found
      have got' := commented comment
      exact ⟨got'.kept, got'.ahead, fun _ => got'.ended (.inl rfl)⟩
    · rename_i c after' comment
      have got' := commented comment
      have less := got'.ahead.less (Nat.zero_le 1)
      split at found
      · split at found
        · cases found
        · rename_i named read
          obtain ⟨kept, ahead', -⟩ := readName_cases less read
          exact (lexed_fail ahead' found).after (got'.kept.trans kept)
        · rename_i buf named read
          obtain ⟨kept, ahead', ended⟩ := readName_cases less read
          cases found
          exact ⟨got'.kept.trans kept, ahead', fun _ => ended buf none rfl (.inl rfl)⟩
        · rename_i buf stop named read
          obtain ⟨kept, ahead', ended⟩ := readName_cases less read
          have given := got'.kept.trans (kept.trans (kept_lungetc named (some stop)))
          have back := ahead_lungetc ahead' fun zero => ended buf (some stop) rfl (.inr zero)
          dsimp only at found
          split at found
          · exact (lexed_fail back found).after given
          · rename_i val _
            have opened : Ahead { named.lungetc (some stop) with parsebuf := some (val.toList, 0) } 0 := by
              refine ⟨fun buf' index reading => ?_, back.zero⟩
              cases reading
              exact le_rfl
            exact (inductionHypothesis opened found).after (given.trans (.same rfl rfl))
      split at found
      · exact (lexed_readQuoted less found).after got'.kept
      · refine (lexed_lexNumber got'.ahead ?_ found).after got'.kept
        exact fun zero => got'.ended (.inr (congrArg some zero))

end Lexer

end Ldpd

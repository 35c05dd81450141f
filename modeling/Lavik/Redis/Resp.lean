import Lavik.Redis.RedisParse
/-!
# The RESP request parser

`RespCommandParser::Parse` is called with whatever bytes have arrived. What it has consumed lives
on in the parser; the caller keeps the rest and puts it before the next bytes.
-/

namespace Lavik.Redis

open Base List

/-! ## Inline commands -/

def hexDigit (byte : UInt8) : Option UInt8 :=
  if 48 ≤ byte ∧ byte ≤ 57 then some (byte - 48)
  else if 97 ≤ byte ∧ byte ≤ 102 then some (byte - 87)
  else if 65 ≤ byte ∧ byte ≤ 70 then some (byte - 55)
  else none

def unescape (escaped : UInt8) : UInt8 :=
  if escaped = 110 then 10
  else if escaped = 114 then 13
  else if escaped = 116 then 9
  else if escaped = 98 then 8
  else if escaped = 97 then 7
  else escaped

def isBlank (byte : UInt8) : Bool := byte = 32 || byte = 9

/-- The inner loop of `ParseInlineArguments`: the argument, what is left of the line and whether a
quote was closed. -/
def inlineArgument (quote : Option UInt8) : Text → Text → StatusOr (Text × Text × Bool)
  | [], argument => .ok (argument, [], quote.isNone)
  | value :: rest, argument =>
    if quote = some value then .ok (argument, rest, true)
    else if quote.isNone ∧ isBlank value then .ok (argument, rest, true)
    else if value ≠ 92 then inlineArgument quote rest (argument ++ [value])
    else
      match rest with
      | [] => .error ⟨.invalidArgument, "unterminated inline escape"⟩
      | escaped :: more =>
        if escaped ≠ 120 then inlineArgument quote more (argument ++ [unescape escaped])
        else
          match more with
          | high :: low :: after =>
            match hexDigit high, hexDigit low with
            | some first, some second =>
              inlineArgument quote after (argument ++ [first * 16 + second])
            | _, _ => .error ⟨.invalidArgument, "invalid inline hex escape"⟩
          | _ => .error ⟨.invalidArgument, "invalid inline hex escape"⟩

theorem inlineArgument_shrinks {quote : Option UInt8} {line argument value rest : Text}
    {closed : Bool} (read : inlineArgument quote line argument = .ok (value, rest, closed)) :
    rest.length ≤ line.length ∧ (line ≠ [] → rest.length < line.length) := by
  fun_induction inlineArgument quote line argument with
  | case1 | case2 | case3 => simp_all
  | case5 | case8 | case9 => simp at read
  -- The other cases consume a byte, or the bytes of an escape, and read on.
  | case4 | case6 | case7 =>
    rename_i ih
    have shorter := (ih read).1
    simp only [length_cons]
    omega

def inlineArguments (line : Text) (args : List Text) : StatusOr (List Text) :=
  match _begins : line.dropWhile isBlank with
  | [] => .ok args
  | first :: rest =>
    let quote := if first = 39 ∨ first = 34 then some first else none
    match _read : inlineArgument quote (if quote.isSome then rest else first :: rest) [] with
    | .error status => .error status
    | .ok (argument, after, closed) =>
      if !closed then .error ⟨.invalidArgument, "unterminated inline quote"⟩
      else if quote.isSome ∧ after.head?.any (fun next => !isBlank next) then
        .error ⟨.invalidArgument, "characters after inline quote"⟩
      else inlineArguments after (args ++ [argument])
termination_by line.length
decreasing_by
  have whole : (first :: rest).length ≤ line.length := _begins ▸ length_dropWhile_le _ _
  have shrinks := inlineArgument_shrinks _read
  rw [length_cons] at whole
  split at shrinks
  · omega
  · have shorter := shrinks.2 (cons_ne_nil _ _)
    rw [length_cons] at shorter
    omega

def parseInlineArguments (line : Text) : StatusOr (List Text) := inlineArguments line []

/-! ## The parser -/

inductive ParserState
  | arrayStart
  | inline
  | arrayLength
  | argumentStart
  | bulkLength
  | bulkData
  | bulkTerminator
  | lineArgument
deriving DecidableEq, Repr

structure RespCommandParser where
  state : ParserState := .arrayStart
  lengthText : Text := []
  command : List Text := []
  currentArgument : Text := []
  argumentsRemaining : Nat := 0
  bulkRemaining : Nat := 0
  terminatorBytes : Fin 2 := 0
  commandBytes : Nat := 0
  queryBufferLimit : Nat
  argumentType : UInt8 := 36
deriving DecidableEq, Repr

inductive Effect
  | again (parser : RespCommandParser)
  | command (args : List Text) (parser : RespCommandParser)
  | error (status : Status)
deriving DecidableEq, Repr

inductive Round
  | effect (effect : Effect) (rest : Text)
  | wait (parser : RespCommandParser) (rest : Text)
deriving DecidableEq, Repr

namespace RespCommandParser

def maxArrayLen : Int := 2147483647

def maxBulkLen : Int := 512 * 1024 * 1024

def maxLengthTextBytes : Nat := 32

variable (parser : RespCommandParser)

def resetCommand : RespCommandParser :=
  { queryBufferLimit := parser.queryBufferLimit, argumentType := parser.argumentType }

def awaitTerminator : RespCommandParser :=
  { parser with terminatorBytes := 0, state := .bulkTerminator }

def account (bytes : Nat) : Option RespCommandParser :=
  if parser.queryBufferLimit < bytes ∨ parser.queryBufferLimit - bytes < parser.commandBytes then
    none
  else some { parser with commandBytes := parser.commandBytes + bytes }

def limitError : Status :=
  ⟨.resourceExhausted, "client request exceeds the query buffer limit"⟩

/-- The lambda `consume`, with what is done next. It is not called in the state `kArrayStart`, where
it would not account. -/
def consume (bytes : Nat) (next : RespCommandParser → Effect) : Effect :=
  match parser.account bytes with
  | none => .error limitError
  | some accounted => next accounted

def arrayStart (input : Text) : Round :=
  match input.dropWhile fun byte => byte = 13 || byte = 10 with
  | [] => .effect (.again parser) []
  | first :: rest =>
    if first ≠ 42 then
      .effect (.again { parser with commandBytes := 0, currentArgument := [], state := .inline })
        (first :: rest)
    else .effect (.again { parser with commandBytes := 1, state := .arrayLength }) rest

def takeLine (finish : RespCommandParser → Effect) (input : Text) : Round :=
  let line := input.takeWhile (· ≠ 10)
  match input.dropWhile (· ≠ 10) with
  | [] =>
    .effect (({ parser with currentArgument := parser.currentArgument ++ line }).consume line.length
      .again) []
  | newline :: rest =>
    .effect (({ parser with currentArgument := parser.currentArgument ++ line ++ [newline]
      }).consume
      (line.length + 1) finish) rest

def finishInline : Effect :=
  let line := parser.currentArgument.dropLast
  match parseInlineArguments (if line.getLast? = some 13 then line.dropLast else line) with
  | .error status => .error status
  | .ok [] => .again parser.resetCommand
  | .ok args => .command args parser.resetCommand

def pushArgument (argument : Text) : Effect :=
  let args := parser.command ++ [argument]
  if parser.argumentsRemaining - 1 ≠ 0 then
    .again { parser with
      command := args
      currentArgument := []
      argumentsRemaining := parser.argumentsRemaining - 1
      state := .argumentStart }
  else .command args parser.resetCommand

def finishLineArgument : Effect :=
  let argument := parser.currentArgument.take (parser.currentArgument.length - 2)
  if parser.currentArgument.length < 2 ∨
      parser.currentArgument[parser.currentArgument.length - 2]? ≠ some 13 then
    .error ⟨.invalidArgument, "malformed RESP scalar terminator"⟩
  else if parser.argumentType = 35 then
    if argument = text "t" then parser.pushArgument (text "1")
    else if argument = text "f" then parser.pushArgument (text "0")
    else .error ⟨.invalidArgument, "invalid RESP boolean"⟩
  else parser.pushArgument argument

def lengthError : Status :=
  ⟨.invalidArgument, if parser.state = .arrayLength then "invalid RESP array length"
    else "invalid RESP bulk string length"⟩

def finishLength : Effect :=
  match whole (fromCharsInt64 parser.lengthText) with
  | none => .error parser.lengthError
  | some parsed =>
    if parsed < 0 then .error parser.lengthError
    else if parser.state = .arrayLength then
      if maxArrayLen < parsed then .error parser.lengthError
      else if parsed = 0 then .again parser.resetCommand
      else .again { parser with
        lengthText := [], argumentsRemaining := parsed.toNat, state := .argumentStart }
    else if maxBulkLen < parsed then .error ⟨.outOfRange, "RESP bulk string too large"⟩
    else .again { parser with
      lengthText := [], bulkRemaining := parsed.toNat, currentArgument := [], state := .bulkData }

/-- The cases `kArrayLength` and `kBulkLength`. A carriage return at the end of the input is left
for the next call. -/
def readLength (parser : RespCommandParser) : Text → Round
  | [] => .effect (.again parser) []
  | value :: rest =>
    if value = 13 then
      match rest with
      | [] => .wait parser [value]
      | next :: after =>
        if next ≠ 10 then .effect (.error parser.lengthError) after
        else .effect (parser.consume 2 finishLength) after
    else if value = 10 ∨ maxLengthTextBytes ≤ parser.lengthText.length then
      .effect (.error parser.lengthError) rest
    else
      match ({ parser with lengthText := parser.lengthText ++ [value] }).account 1 with
      | none => .effect (.error limitError) rest
      | some accounted => readLength accounted rest

def argumentTypes : List UInt8 := [36, 61, 43, 58, 44, 40, 35]

def startArgument (type : UInt8) : Effect :=
  if type ∉ argumentTypes then
    .error ⟨.invalidArgument, "expected RESP string or scalar argument"⟩
  else ({ parser with argumentType := type }).consume 1 fun accounted =>
    .again { accounted with
      currentArgument := []
      state := if type = 36 ∨ type = 61 then .bulkLength else .lineArgument }

def readBulk (input : Text) : Round :=
  let take := min input.length parser.bulkRemaining
  let taken : RespCommandParser := { parser with
    currentArgument := parser.currentArgument ++ input.take take
    bulkRemaining := parser.bulkRemaining - take }
  let next := fun accounted : RespCommandParser => Effect.again <|
    if accounted.bulkRemaining = 0 then accounted.awaitTerminator else accounted
  .effect (if take ≠ 0 then taken.consume take next else next taken) (input.drop take)

def finishBulk : Effect :=
  if parser.argumentType = 61 then
    if parser.currentArgument.length < 4 ∨ parser.currentArgument[3]? ≠ some 58 then
      .error ⟨.invalidArgument, "invalid RESP verbatim string"⟩
    else parser.pushArgument (parser.currentArgument.drop 4)
  else parser.pushArgument parser.currentArgument

def terminatorByte (value : UInt8) : Effect :=
  if value ≠ (if parser.terminatorBytes = 0 then 13 else 10) then
    .error ⟨.invalidArgument, "malformed RESP bulk string terminator"⟩
  else if parser.terminatorBytes = 0 then
    ({ parser with terminatorBytes := 1 }).consume 1 .again
  else parser.consume 1 finishBulk

def readTerminator : Text → Round
  | [] => .effect (.again parser) []
  | value :: rest =>
    if parser.terminatorBytes = 0 then
      match parser.terminatorByte value, rest with
      | .again seen, last :: after => .effect (seen.terminatorByte last) after
      | effect, rest => .effect effect rest
    else .effect (parser.terminatorByte value) rest

def round (input : Text) : Round :=
  match parser.state, input with
  | .arrayStart, input => parser.arrayStart input
  | .inline, input => parser.takeLine finishInline input
  | .arrayLength, input | .bulkLength, input => parser.readLength input
  | .argumentStart, [] => .effect (.again parser) []
  | .argumentStart, type :: rest => .effect (parser.startArgument type) rest
  | .lineArgument, input => parser.takeLine finishLineArgument input
  | .bulkData, input => parser.readBulk input
  | .bulkTerminator, input => parser.readTerminator input

/-! ## The loop -/

def rank : Nat :=
  if parser.state = .arrayStart ∨ parser.state = .bulkData then 1 else 0

variable {parser next : RespCommandParser} {input rest : Text}

theorem arrayStart_shrinks (start : parser.state = .arrayStart) (ne : input ≠ [])
    (went : parser.arrayStart input = .effect (.again next) rest) :
    rest.length < input.length ∨ rest.length ≤ input.length ∧ next.rank < parser.rank := by
  have shorter := length_dropWhile_le (fun byte => byte = 13 || byte = 10) input
  unfold arrayStart at went
  split at went
  · obtain ⟨-, rfl⟩ := Round.effect.inj went
    exact .inl (length_pos_iff.mpr ne)
  rename_i first after skipped
  rw [skipped] at shorter
  split at went
  · obtain ⟨same, rfl⟩ := Round.effect.inj went
    obtain rfl := Effect.again.inj same
    exact .inr ⟨shorter, by simp [rank, start]⟩
  · obtain ⟨-, rfl⟩ := Round.effect.inj went
    exact .inl (by rw [length_cons] at shorter; omega)

theorem takeLine_shrinks {finish : RespCommandParser → Effect} (ne : input ≠ [])
    (went : parser.takeLine finish input = .effect (.again next) rest) :
    rest.length < input.length := by
  have shorter := length_dropWhile_le (· ≠ 10) input
  unfold takeLine at went
  split at went
  · obtain ⟨-, rfl⟩ := Round.effect.inj went
    exact length_pos_iff.mpr ne
  rename_i newline after split_off
  obtain ⟨-, rfl⟩ := Round.effect.inj went
  rw [split_off, length_cons] at shorter
  omega

theorem readLength_shrinks (ne : input ≠ [])
    (went : parser.readLength input = .effect (.again next) rest) : rest.length < input.length := by
  induction input generalizing parser with
  | nil => exact absurd rfl ne
  | cons value tail ih =>
    unfold readLength at went
    split at went
    · split at went
      · exact absurd went (by simp)
      split at went
      · exact absurd went (by simp)
      · obtain ⟨-, rfl⟩ := Round.effect.inj went
        simp only [length_cons]
        omega
    split at went
    · exact absurd went (by simp)
    split at went
    · exact absurd went (by simp)
    cases tail with
    | nil =>
      obtain ⟨-, rfl⟩ := Round.effect.inj went
      exact Nat.zero_lt_one
    | cons second tail =>
      have shorter := ih (cons_ne_nil _ _) went
      simp only [length_cons] at shorter ⊢
      omega

theorem readBulk_shrinks (bulk : parser.state = .bulkData) (ne : input ≠ [])
    (went : parser.readBulk input = .effect (.again next) rest) :
    rest.length < input.length ∨ rest.length ≤ input.length ∧ next.rank < parser.rank := by
  have some_input := length_pos_iff.mpr ne
  obtain ⟨effect, rfl⟩ := Round.effect.inj went
  rw [length_drop]
  by_cases nothing : min input.length parser.bulkRemaining = 0
  · right
    rw [if_neg (not_not.mpr nothing)] at effect
    have none_left : parser.bulkRemaining - min input.length parser.bulkRemaining = 0 := by omega
    simp only [none_left, if_true] at effect
    obtain rfl := Effect.again.inj effect
    exact ⟨by omega, by simp [rank, bulk, awaitTerminator]⟩
  · left
    omega

theorem readTerminator_shrinks (ne : input ≠ [])
    (went : parser.readTerminator input = .effect (.again next) rest) :
    rest.length < input.length := by
  cases input with
  | nil => exact absurd rfl ne
  | cons value tail =>
    simp only [readTerminator] at went
    split at went
    · split at went
      · obtain ⟨-, rfl⟩ := Round.effect.inj went
        simp only [length_cons]
        omega
      · obtain ⟨-, rfl⟩ := Round.effect.inj went
        exact Nat.lt_succ_self _
    · obtain ⟨-, rfl⟩ := Round.effect.inj went
      exact Nat.lt_succ_self _

theorem round_shrinks (ne : input ≠ []) (went : parser.round input = .effect (.again next) rest) :
    rest.length < input.length ∨ rest.length ≤ input.length ∧ next.rank < parser.rank := by
  unfold round at went
  split at went
  · rename_i start
    exact arrayStart_shrinks start ne went
  · exact .inl (takeLine_shrinks ne went)
  · exact .inl (readLength_shrinks ne went)
  · exact .inl (readLength_shrinks ne went)
  · exact absurd rfl ne
  · obtain ⟨-, rfl⟩ := Round.effect.inj went
    exact .inl (Nat.lt_succ_self _)
  · exact .inl (takeLine_shrinks ne went)
  · rename_i bulk
    exact readBulk_shrinks bulk ne went
  · exact .inl (readTerminator_shrinks ne went)

end RespCommandParser

/-- What `Parse` returns, with the parser it leaves. The rest of the input is what `consumed_` does
not cover; after an error nothing more is read. -/
inductive RespParseResult
  | ok (command : List Text) (parser : RespCommandParser) (rest : Text)
  | needMoreData (parser : RespCommandParser) (rest : Text)
  | error (status : Status)

def RespCommandParser.parse (parser : RespCommandParser) (input : Text) : RespParseResult :=
  match input with
  | [] => .needMoreData parser []
  | first :: tail =>
    match _went : parser.round (first :: tail) with
    | .wait next rest => .needMoreData next rest
    | .effect (.again next) rest => next.parse rest
    | .effect (.command args next) rest => .ok args next rest
    | .effect (.error status) _ => .error status
termination_by (input.length, parser.rank)
decreasing_by
  rcases RespCommandParser.round_shrinks (cons_ne_nil _ _) _went with shorter | ⟨same, lower⟩
  · exact Prod.Lex.left _ _ shorter
  rcases Nat.lt_or_eq_of_le same with shorter | same
  · exact Prod.Lex.left _ _ shorter
  · rw [same]
    exact Prod.Lex.right _ lower

end Lavik.Redis

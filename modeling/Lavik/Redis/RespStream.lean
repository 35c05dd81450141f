import Lavik.Redis.Resp
/-!
# A request stream and its chunks

Read byte by byte the parser is a machine with one piece of memory more: a carriage return that
ends a length is held back until the next byte shows what it is. `Parse` on any input does what the
machine does on its bytes, so the commands of a stream do not depend on how it is cut.
-/

namespace Lavik.Redis

open Base List Effect RespCommandParser

/-! ## The machine over bytes -/

inductive Fed
  | effect (effect : Effect)
  | hold

namespace RespCommandParser

variable (parser : RespCommandParser)

def lineByte (finish : RespCommandParser → Effect) (byte : UInt8) : Effect :=
  ({ parser with currentArgument := parser.currentArgument ++ [byte] }).consume 1
    (if byte = 10 then finish else .again)

variable (byte : UInt8)

def lengthByte : Fed :=
  if byte = 13 then .hold
  else if byte = 10 ∨ maxLengthTextBytes ≤ parser.lengthText.length then
    .effect (.error parser.lengthError)
  else .effect (({ parser with lengthText := parser.lengthText ++ [byte] }).consume 1 .again)

def releaseByte : Effect :=
  if byte ≠ 10 then .error parser.lengthError else parser.consume 2 finishLength

def bulkByte : Effect :=
  match parser.bulkRemaining with
  | 0 => parser.awaitTerminator.terminatorByte byte
  | left + 1 =>
    ({ parser with
        currentArgument := parser.currentArgument ++ [byte]
        bulkRemaining := left }).consume 1
      fun accounted => .again (if left = 0 then accounted.awaitTerminator else accounted)

def startByte : Effect :=
  if byte = 13 ∨ byte = 10 then .again parser
  else if byte = 42 then .again { parser with commandBytes := 1, state := .arrayLength }
  else ({ parser with commandBytes := 0, currentArgument := [], state := .inline }).lineByte
    finishInline byte

def feed : Fed :=
  match parser.state with
  | .arrayStart => .effect (parser.startByte byte)
  | .inline => .effect (parser.lineByte finishInline byte)
  | .arrayLength | .bulkLength => parser.lengthByte byte
  | .argumentStart => .effect (parser.startArgument byte)
  | .lineArgument => .effect (parser.lineByte finishLineArgument byte)
  | .bulkData => .effect (parser.bulkByte byte)
  | .bulkTerminator => .effect (parser.terminatorByte byte)

end RespCommandParser

/-! ## `Parse` on one more byte -/

def Effect.resume : Effect → Text → RespParseResult
  | .again next, rest => next.parse rest
  | .command args next, rest => .ok args next rest
  | .error status, _ => .error status

def Round.resume : Round → RespParseResult
  | .effect made rest => made.resume rest
  | .wait next rest => .needMoreData next rest

namespace RespCommandParser

variable {parser next : RespCommandParser} {byte : UInt8} {rest : Text}

variable (parser)

theorem parse_nil : parser.parse [] = .needMoreData parser [] := by
  rw [parse]

theorem parse_cons (byte : UInt8) (rest : Text) :
    parser.parse (byte :: rest) = (parser.round (byte :: rest)).resume := by
  rw [parse]
  split <;> simp_all [Round.resume, resume]

def Resting : Prop := parser.round [] = .effect (.again parser) []

variable {parser}

theorem Resting.resume (resting : parser.Resting) (input : Text) :
    (parser.round input).resume = parser.parse input := by
  cases input with
  | nil => rw [resting, Round.resume, Effect.resume]
  | cons byte rest => exact (parse_cons parser byte rest).symm

theorem parse_of_round (goes : parser.round (byte :: rest) = next.round rest)
    (resting : next.Resting) : parser.parse (byte :: rest) = next.parse rest := by
  rw [parse_cons, goes, resting.resume]

variable {bytes : Nat}

theorem consume_fits (finish : RespCommandParser → Effect)
    (fits : parser.commandBytes + bytes ≤ parser.queryBufferLimit) :
    parser.consume bytes finish =
      finish { parser with commandBytes := parser.commandBytes + bytes } := by
  rw [consume, account, if_neg (by omega)]

theorem consume_exceeds (finish : RespCommandParser → Effect)
    (exceeds : parser.queryBufferLimit < parser.commandBytes + bytes) :
    parser.consume bytes finish = .error limitError := by
  rw [consume, account, if_pos (by omega)]

theorem consume_add (parser : RespCommandParser) (first second : Nat)
    (finish : RespCommandParser → Effect) :
    parser.consume (first + second) finish =
      parser.consume first fun accounted => accounted.consume second finish := by
  by_cases once : parser.commandBytes + first ≤ parser.queryBufferLimit
  · rw [consume_fits _ once]
    by_cases twice : parser.commandBytes + (first + second) ≤ parser.queryBufferLimit
    · rw [consume_fits _ twice, consume_fits _ (by simp only; omega), Nat.add_assoc]
    · rw [consume_exceeds _ (by omega), consume_exceeds _ (by simp only; omega)]
  · rw [consume_exceeds _ (by omega), consume_exceeds _ (by omega)]

/-! ### Lines -/

def tookByte (parser : RespCommandParser) (byte : UInt8) : RespCommandParser :=
  { parser with
    currentArgument := parser.currentArgument ++ [byte]
    commandBytes := parser.commandBytes + 1 }

variable {finish : RespCommandParser → Effect}

theorem takeLine_more (other : byte ≠ 10)
    (fits : parser.commandBytes + 1 ≤ parser.queryBufferLimit) :
    parser.takeLine finish (byte :: rest) = (parser.tookByte byte).takeLine finish rest := by
  have one_more : ∀ argument count made,
      ({ parser with currentArgument := argument } : RespCommandParser).consume (count + 1) made =
        ({ parser with
            currentArgument := argument
            commandBytes := parser.commandBytes + 1 } : RespCommandParser).consume count made := by
    intro argument count made
    rw [Nat.add_comm, consume_add]
    exact consume_fits _ fits
  simp only [takeLine, takeWhile_cons, dropWhile_cons, decide_eq_true other, if_true, length_cons]
  split
  · rw [one_more, tookByte, append_assoc]
    rfl
  · rw [one_more, tookByte, append_assoc parser.currentArgument [byte]]
    rfl

theorem parse_line (lines : ∀ (other : RespCommandParser) input, other.state = parser.state →
      other.round input = other.takeLine finish input) :
    parser.parse (byte :: rest) = (parser.lineByte finish byte).resume rest := by
  by_cases fits : parser.commandBytes + 1 ≤ parser.queryBufferLimit
  · rw [show parser.lineByte finish byte = _ from consume_fits _ fits]
    by_cases newline : byte = 10
    · rw [parse_cons, lines parser _ rfl, if_pos newline, newline]
      simp [takeLine, consume_fits, fits, Round.resume]
    rw [if_neg newline, resume]
    refine parse_of_round ?_ ?_
    · rw [lines parser _ rfl, takeLine_more newline fits]
      exact (lines (parser.tookByte byte) rest rfl).symm
    · refine (lines (parser.tookByte byte) [] rfl).trans ?_
      simp [takeLine, consume_fits, tookByte, fits]
  · have refused : parser.lineByte finish byte = .error limitError :=
      consume_exceeds _ (Nat.lt_of_not_le fits)
    have exceeds : (parser.takeLine finish (byte :: rest)).resume = .error limitError := by
      by_cases newline : byte = 10
      · simp only [takeLine, newline, takeWhile_cons, dropWhile_cons]
        simp [consume_exceeds, Nat.lt_of_not_le fits, Round.resume, resume]
      simp only [takeLine, takeWhile_cons, decide_eq_true newline, if_true, length_cons]
      split <;> rw [consume_exceeds _ (by simp only; omega)] <;> rfl
    rw [parse_cons, lines parser _ rfl, exceeds, refused]
    rfl

/-! ### The other states -/

theorem parse_inline (inline : parser.state = .inline) :
    parser.parse (byte :: rest) = (parser.lineByte finishInline byte).resume rest :=
  parse_line fun other input same => by simp only [round, same, inline]

theorem round_arrayStart (start : parser.state = .arrayStart) (input : Text) :
    parser.round input = parser.arrayStart input := by
  simp only [round, start]

theorem parse_arrayStart (start : parser.state = .arrayStart) :
    parser.parse (byte :: rest) = (parser.startByte byte).resume rest := by
  unfold startByte
  split
  · rename_i blank
    -- A line end between requests is skipped, as it would be at the head of the next input.
    have skipped : parser.round (byte :: rest) = parser.round rest := by
      rw [round_arrayStart start, round_arrayStart start, arrayStart, arrayStart,
        dropWhile_cons_of_pos (by simpa using blank)]
    exact parse_of_round skipped (round_arrayStart start [])
  · rename_i notBlank
    have kept : (byte :: rest).dropWhile (fun byte => byte = 13 || byte = 10) = byte :: rest :=
      dropWhile_cons_of_neg (by simpa using notBlank)
    rw [parse_cons, round_arrayStart start, arrayStart, kept]
    by_cases array : byte = 42
    · simp only [array, ne_eq, not_true_eq_false, if_true, if_false]
      rfl
    · simp only [array, ne_eq, not_false_eq_true, if_true, if_false, Round.resume, resume]
      exact parse_inline rfl

section

variable (length : parser.state = .arrayLength ∨ parser.state = .bulkLength)

include length

theorem round_length (input : Text) : parser.round input = parser.readLength input := by
  rcases length with array | bulk
  · simp only [round, array]
  · simp only [round, bulk]

theorem feed_length (byte : UInt8) : parser.feed byte = parser.lengthByte byte := by
  rcases length with array | bulk
  · simp only [feed, array]
  · simp only [feed, bulk]

theorem parse_length (other : byte ≠ 13) :
    ∃ effect, parser.lengthByte byte = .effect effect ∧
      parser.parse (byte :: rest) = effect.resume rest := by
  rw [lengthByte, if_neg other, parse_cons, round_length length, readLength.eq_def]
  dsimp only
  split
  · exact ⟨_, rfl, rfl⟩
  refine ⟨_, rfl, ?_⟩
  by_cases fits : parser.commandBytes + 1 ≤ parser.queryBufferLimit
  · have accounted : ({ parser with lengthText := parser.lengthText ++ [byte] } :
        RespCommandParser).account 1 = some { parser with
          lengthText := parser.lengthText ++ [byte]
          commandBytes := parser.commandBytes + 1 } := by
      rw [account, if_neg (by simp only; omega)]
    rw [consume, accounted]
    simp only [resume]
    rw [← round_length (by exact length)]
    exact Resting.resume (round_length (by exact length) []) rest
  · have refused : ({ parser with lengthText := parser.lengthText ++ [byte] } :
        RespCommandParser).account 1 = none := by
      rw [account, if_pos (by simp only; omega)]
    rw [consume, refused]
    rfl

theorem parse_return_alone : parser.parse [13] = .needMoreData parser [13] := by
  rw [parse_cons, round_length length]
  rfl

theorem parse_return_pair (next : UInt8) (after : Text) :
    parser.parse (13 :: next :: after) = (parser.releaseByte next).resume after := by
  rw [parse_cons, round_length length, readLength.eq_def, releaseByte]
  dsimp only
  rw [if_pos rfl]
  split <;> rfl

end

theorem parse_argumentStart (start : parser.state = .argumentStart) :
    parser.parse (byte :: rest) = (parser.startArgument byte).resume rest := by
  rw [parse_cons]
  simp only [round, start, Round.resume]

theorem round_terminator (terminator : parser.state = .bulkTerminator) (input : Text) :
    parser.round input = parser.readTerminator input := by
  simp only [round, terminator]

theorem parse_terminator (terminator : parser.state = .bulkTerminator) :
    parser.parse (byte :: rest) = (parser.terminatorByte byte).resume rest := by
  rw [parse_cons, round_terminator terminator, readTerminator.eq_def]
  dsimp only
  split
  · rename_i first
    split
    · rename_i seen last after took
      -- Both bytes of the terminator are there: the second is the next round of the machine.
      rw [took, resume]
      have second : seen.state = .bulkTerminator ∧ seen.terminatorBytes = 1 := by
        simp only [terminatorByte, first, if_true] at took
        split at took
        · exact absurd took (by simp)
        unfold consume at took
        split at took
        · exact absurd took (by simp)
        rename_i accounted fits
        obtain rfl := again.inj took
        unfold account at fits
        split at fits
        · exact absurd fits (by simp)
        · obtain rfl := Option.some.inj fits
          exact ⟨terminator, rfl⟩
      rw [parse_cons, round_terminator second.1, readTerminator.eq_def]
      dsimp only
      rw [if_neg (by simp [second.2])]
    · rfl
  · rfl

theorem round_bulk (bulk : parser.state = .bulkData) (input : Text) :
    parser.round input = parser.readBulk input := by
  simp only [round, bulk]

def tookBulk (parser : RespCommandParser) (byte : UInt8) (left : Nat) : RespCommandParser :=
  { parser with
    currentArgument := parser.currentArgument ++ [byte]
    bulkRemaining := left
    commandBytes := parser.commandBytes + 1 }

theorem readBulk_more {left : Nat} (remaining : parser.bulkRemaining = left + 1)
    (fits : parser.commandBytes + 1 ≤ parser.queryBufferLimit) :
    parser.readBulk (byte :: rest) = (parser.tookBulk byte left).readBulk rest := by
  have some_bytes : min (byte :: rest).length (left + 1) = min rest.length left + 1 := by
    rw [length_cons, Nat.add_min_add_right]
  have same_left : left + 1 - (min rest.length left + 1) = left - min rest.length left := by omega
  simp only [readBulk, remaining, some_bytes, same_left, tookBulk, take_succ_cons,
    drop_succ_cons, ne_eq, Nat.add_one_ne_zero, not_false_eq_true, if_true]
  congr 1
  rw [Nat.add_comm (min rest.length left) 1, consume_add]
  rw [consume_fits _ (by exact fits)]
  by_cases none_more : min rest.length left = 0
  · simp only [none_more, take_zero, Nat.sub_zero, not_true_eq_false, if_false, append_nil]
    exact consume_fits _ fits
  · simp only [none_more, not_false_eq_true, if_true, append_assoc, singleton_append]

theorem readBulk_last (remaining : parser.bulkRemaining = 0) (input : Text) :
    parser.readBulk input = .effect (.again parser.awaitTerminator) input := by
  simp [readBulk, remaining, awaitTerminator]

theorem parse_bulk (bulk : parser.state = .bulkData) :
    parser.parse (byte :: rest) = (parser.bulkByte byte).resume rest := by
  unfold bulkByte
  split
  · rename_i done
    rw [parse_cons, round_bulk bulk, readBulk_last done]
    exact parse_terminator rfl
  rename_i left remaining
  by_cases fits : parser.commandBytes + 1 ≤ parser.queryBufferLimit
  · refine Eq.trans ?_ (congrArg (resume · rest) (consume_fits _ (by exact fits)).symm)
    rw [parse_cons, round_bulk bulk, readBulk_more remaining fits]
    split
    · rename_i last
      rw [readBulk_last last]
      rfl
    rename_i more
    have still : (parser.tookBulk byte left).state = .bulkData := bulk
    have resting : (parser.tookBulk byte left).Resting :=
      (round_bulk still []).trans (by simp [readBulk, tookBulk, more])
    rw [← round_bulk still rest]
    exact resting.resume rest
  · have some_bytes : min (byte :: rest).length parser.bulkRemaining ≠ 0 := by
      rw [remaining, length_cons]
      omega
    rw [parse_cons, round_bulk bulk]
    simp only [readBulk, ne_eq, some_bytes, not_false_eq_true, if_true, Round.resume]
    rw [consume_exceeds _ (by simp only; omega)]
    exact (congrArg (resume · rest) (consume_exceeds _ (by exact Nat.lt_of_not_le fits))).symm

theorem parse_feed (parser : RespCommandParser) (byte : UInt8) (rest : Text) :
    (∃ effect, parser.feed byte = .effect effect ∧
        parser.parse (byte :: rest) = effect.resume rest) ∨
      (parser.feed byte = .hold ∧ byte = 13 ∧ parser.parse [13] = .needMoreData parser [13] ∧
        ∀ next after, parser.parse (13 :: next :: after) =
          (parser.releaseByte next).resume after) := by
  by_cases length : parser.state = .arrayLength ∨ parser.state = .bulkLength
  · rw [feed_length length]
    by_cases held : byte = 13
    · exact .inr ⟨if_pos held, held, parse_return_alone length, parse_return_pair length⟩
    · exact .inl (parse_length length held)
  cases state : parser.state with
  | arrayStart => exact .inl ⟨_, by simp only [feed, state], parse_arrayStart state⟩
  | inline => exact .inl ⟨_, by simp only [feed, state], parse_inline state⟩
  | arrayLength => exact absurd (.inl state) length
  | argumentStart => exact .inl ⟨_, by simp only [feed, state], parse_argumentStart state⟩
  | bulkLength => exact absurd (.inr state) length
  | bulkData => exact .inl ⟨_, by simp only [feed, state], parse_bulk state⟩
  | bulkTerminator => exact .inl ⟨_, by simp only [feed, state], parse_terminator state⟩
  | lineArgument =>
    refine .inl ⟨parser.lineByte finishLineArgument byte, by simp only [feed, state], ?_⟩
    exact parse_line fun other input same => by simp only [round, same, state]

end RespCommandParser

/-! ## Streams -/

inductive StreamEnd
  | waiting (parser : RespCommandParser) (rest : Text)
  | failed (status : Status)

abbrev StreamRead := List (List Text) × StreamEnd

def StreamRead.prepend (args : List Text) (tail : StreamRead) : StreamRead :=
  (args :: tail.1, tail.2)

def StreamRead.andThen (front : StreamRead) (next : RespCommandParser → Text → StreamRead) :
    StreamRead :=
  match front.2 with
  | .waiting parser rest => (front.1 ++ (next parser rest).1, (next parser rest).2)
  | .failed status => (front.1, .failed status)

theorem StreamRead.andThen_prepend (args : List Text) (front : StreamRead)
    (next : RespCommandParser → Text → StreamRead) :
    (front.prepend args).andThen next = (front.andThen next).prepend args := by
  obtain ⟨commands, ending⟩ := front
  cases ending <;> rfl

def Effect.follow (next : RespCommandParser → StreamRead) : Effect → StreamRead
  | .again parser => next parser
  | .command args parser => (next parser).prepend args
  | .error status => ([], .failed status)

namespace RespCommandParser

variable {parser next : RespCommandParser} {input rest : Text} {held : Bool}

theorem parse_ok_consumes {args : List Text} (parsed : parser.parse input = .ok args next rest) :
    rest.length < input.length := by
  induction size : input.length using Nat.strong_induction_on generalizing parser input with
  | _ size ih =>
    subst size
    have behind : ∀ {effect : Effect} {after : Text}, after.length < input.length →
        effect.resume after = .ok args next rest → rest.length < input.length := by
      intro effect after shorter resumed
      cases effect with
      | again parser => exact (ih _ shorter resumed rfl).trans shorter
      | command made parser =>
        obtain ⟨-, -, rfl⟩ := RespParseResult.ok.inj resumed
        exact shorter
      | error status => exact absurd resumed (by simp [resume])
    cases input with
    | nil => exact absurd (parse_nil parser ▸ parsed) (by simp)
    | cons byte tail =>
      rcases parse_feed parser byte tail with ⟨effect, -, same⟩ | ⟨-, rfl, alone, pair⟩
      · exact behind (Nat.lt_succ_self _) (same ▸ parsed)
      cases tail with
      | nil => exact absurd (alone ▸ parsed) (by simp)
      | cons second after =>
        exact behind (by simp only [length_cons]; omega) (pair second after ▸ parsed)

def readInput (parser : RespCommandParser) (input : Text) : StreamRead :=
  match _parsed : parser.parse input with
  | .ok args next rest => (next.readInput rest).prepend args
  | .needMoreData next rest => ([], .waiting next rest)
  | .error status => ([], .failed status)
termination_by input.length
decreasing_by exact parse_ok_consumes _parsed

def readChunks : RespCommandParser → Text → List Text → StreamRead
  | parser, kept, [] => ([], .waiting parser kept)
  | parser, kept, chunk :: chunks =>
    (parser.readInput (kept ++ chunk)).andThen fun next rest => next.readChunks rest chunks

def absorb : RespCommandParser → Bool → Text → StreamRead
  | parser, held, [] => ([], .waiting parser (if held then [13] else []))
  | parser, held, byte :: rest =>
    match if held then Fed.effect (parser.releaseByte byte) else parser.feed byte with
    | .hold => absorb parser true rest
    | .effect made => made.follow fun next => absorb next false rest

/-! ### `Parse` refines the machine -/

theorem readInput_resume {effect : Effect} (parsed : parser.parse input = effect.resume rest) :
    parser.readInput input = effect.follow fun next => next.readInput rest := by
  cases effect with
  | again next =>
    rw [readInput, parsed, follow, readInput]
    rfl
  | command | error =>
    rw [readInput, parsed]
    rfl

theorem readInput_eq_absorb (parser : RespCommandParser) (input : Text) :
    parser.readInput input = parser.absorb false input := by
  induction size : input.length using Nat.strong_induction_on generalizing parser input with
  | _ size ih =>
    subst size
    cases input with
    | nil =>
      rw [readInput, parse_nil]
      rfl
    | cons byte tail =>
      rcases parse_feed parser byte tail with ⟨effect, fed, same⟩ | ⟨fed, rfl, alone, pair⟩
      · simp only [absorb, Bool.false_eq_true, if_false, fed]
        rw [readInput_resume same]
        congr 1
        funext next
        exact ih tail.length (Nat.lt_succ_self _) next tail rfl
      · simp only [absorb, Bool.false_eq_true, if_false, fed]
        cases tail with
        | nil =>
          rw [readInput, alone]
          rfl
        | cons second after =>
          rw [readInput_resume (pair second after)]
          congr 1
          funext next
          exact ih after.length (by simp only [length_cons]; omega) next after rfl

/-! ### The machine over a cut stream -/

/-- A parser and what it left: nothing, or the carriage return it holds back. -/
def Keeps (parser : RespCommandParser) (kept : Text) : Prop :=
  kept = [] ∨ kept = [13] ∧ parser.feed 13 = .hold

theorem feed_hold {byte : UInt8}
    (fed : (if held then Fed.effect (parser.releaseByte byte) else parser.feed byte) = .hold) :
    parser.feed 13 = .hold := by
  cases held with
  | true => exact absurd fed (by simp)
  | false =>
    rcases parse_feed parser byte [] with ⟨effect, made, -⟩ | ⟨-, rfl, -⟩
    · exact absurd (fed.symm.trans made) (by simp)
    · exact fed

section

variable (holds : held = true → parser.feed 13 = .hold)

include holds

theorem Keeps.absorb (input : Text) :
    parser.absorb false ((if held then [13] else []) ++ input) = parser.absorb held input := by
  cases held with
  | false => rfl
  | true =>
    rw [if_pos rfl, singleton_append, absorb]
    simp [holds rfl]

theorem absorb_append (front back : Text) :
    parser.absorb held (front ++ back) = (parser.absorb held front).andThen fun next rest =>
      next.absorb false (rest ++ back) := by
  induction front generalizing parser held with
  | nil =>
    rw [nil_append, ← Keeps.absorb holds back]
    rfl
  | cons byte front ih =>
    rw [cons_append, absorb, absorb]
    split
    · rename_i fed
      exact ih fun _ => feed_hold fed
    · rename_i made fed
      cases made with
      | again next => exact ih (by simp)
      | command args next =>
        rw [follow, follow, StreamRead.andThen_prepend, ih (by simp)]
      | error status => rfl

theorem absorb_keeps {commands : List (List Text)}
    (read : parser.absorb held input = (commands, .waiting next rest)) : next.Keeps rest := by
  induction input generalizing parser held commands with
  | nil =>
    obtain ⟨-, same⟩ := Prod.mk.inj read
    obtain ⟨rfl, rfl⟩ := StreamEnd.waiting.inj same
    cases held with
    | false => exact .inl rfl
    | true => exact .inr ⟨rfl, holds rfl⟩
  | cons byte input ih =>
    rw [absorb] at read
    split at read
    · rename_i fed
      exact ih (fun _ => feed_hold fed) read
    · rename_i made fed
      cases made with
      | again after => exact ih (by simp) read
      | command args after =>
        have tail : after.absorb false input = ((after.absorb false input).1, .waiting next rest) :=
          Prod.ext rfl (Prod.mk.inj read).2
        exact ih (by simp) tail
      | error status => exact absurd read (by simp [follow])

end

theorem readChunks_eq_absorb {kept : Text} (keeps : parser.Keeps kept) (chunks : List Text) :
    parser.readChunks kept chunks = parser.absorb false (kept ++ chunks.flatten) := by
  induction chunks generalizing parser kept with
  | nil =>
    rcases keeps with rfl | ⟨rfl, holds⟩
    · rfl
    · simp [readChunks, absorb, holds]
  | cons chunk chunks ih =>
    have joined : parser.absorb false (kept ++ chunk ++ chunks.flatten) =
        (parser.absorb false (kept ++ chunk)).andThen fun next rest =>
          next.absorb false (rest ++ chunks.flatten) := absorb_append (by simp) _ _
    rw [readChunks, readInput_eq_absorb, flatten_cons, ← append_assoc, joined]
    cases read : parser.absorb false (kept ++ chunk) with
    | mk commands ending =>
      cases ending with
      | waiting next rest =>
        simp only [StreamRead.andThen]
        rw [ih (absorb_keeps (by simp) read)]
      | failed status => rfl

/-- However a stream is cut into chunks, the parser finds the same commands and the same end as in
the whole stream. -/
theorem chunks_read_as_one (parser : RespCommandParser) (chunks : List Text) :
    parser.readChunks [] chunks = parser.readChunks [] [chunks.flatten] := by
  rw [readChunks_eq_absorb (.inl rfl), readChunks_eq_absorb (.inl rfl)]
  simp

end RespCommandParser

end Lavik.Redis

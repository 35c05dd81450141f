import Mathlib.Data.List.Range
import Lavik.Redis.RedisParse
/-!
# The command table

`DetermineKeys` says which arguments of a request are keys. Most commands describe them by fixed
positions; the rest count them in an argument or find them behind an option. The answer is a
`KeyIndexView`, whose positions are 16-bit numbers.
-/

namespace Lavik.Redis

open Base

inductive CommandKind
  | ping | echo | publish | pubsub | psubscribe | punsubscribe | subscribe | unsubscribe | quit
  | reset | auth | hello | dbsize | del | unlink | rename | renamenx | copy | exists | touch
  | randomkey | flushdb | flushall | get | getdel | getex | getrange | getset | append | getbit
  | setbit | bitcount | bitpos | bitfield | bitfieldro | bitop | strlen | incr | incrby
  | incrbyfloat | decr | decrby | setex | psetex | setnx | setrange | substr | lcs | expire
  | pexpire | expireat | pexpireat | persist | ttl | pttl | expiretime | pexpiretime | scan
  | type | dump | restore | sort | sortro | select | eval | evalsha | evalro | evalsharo | script
  | fcall | fcallro | function | set | lpush | lpushx | rpush | rpushx | lpop | rpop | llen
  | lindex | lrange | lset | linsert | lrem | ltrim | lpos | lmove | rpoplpush | lmpop | blpop
  | brpop | blmove | brpoplpush | blmpop | hset | hmset | hreplace | hsetnx | hget | hmget | hdel
  | hlen | hexists | hgetall | hkeys | hvals | hstrlen | hincrby | hincrbyfloat | hrandfield
  | hscan | sadd | scard | sdiff | sdiffstore | sinter | sintercard | sinterstore | sismember
  | smembers | smismember | smove | spop | srandmember | srem | sscan | sunion | sunionstore
  | bzmpop | bzpopmax | bzpopmin | zadd | zcard | zcount | zincrby | zlexcount | zmpop | zmscore
  | zpopmax | zpopmin | zrandmember | zrange | zrangestore | zrangebylex | zrangebyscore | zrank
  | zrem | zremrangebylex | zremrangebyrank | zremrangebyscore | zrevrange | zrevrangebylex
  | zrevrangebyscore | zrevrank | zscan | zscore | zdiff | zdiffstore | zinter | zintercard
  | zinterstore | zunion | zunionstore | geoadd | geodist | geohash | geopos | georadius
  | georadiusro | georadiusbymember | georadiusbymemberro | geosearch | geosearchstore | xadd
  | xdel | xlen | xrange | xrevrange | xtrim | xsetid | xgroup | xack | xpending | xclaim
  | xautoclaim | xinfo | xread | xreadgroup | mset | msetnx | mget | multi | exec | discard
  | watch | unwatch | client | replicaof | addreplicaof | config | info | role | wait | cluster
  | command | readonly | readwrite | keys | save | bgsave | lastsave | monitor | slowlog
  | tombraider | defrag | unknown
deriving DecidableEq, Repr

structure CommandSpec where
  name : String
  kind : CommandKind
  minArgs : UInt8
  maxArgs : UInt8
  firstKey : UInt8
  lastKey : Int
  keyStep : UInt8
  movableKeys : Bool
deriving DecidableEq, Repr

namespace CommandSpec

/-- A command without keys. -/
def keyless (name : String) (kind : CommandKind) (minArgs maxArgs : UInt8) : CommandSpec :=
  ⟨name, kind, minArgs, maxArgs, 0, 0, 1, false⟩

variable (name : String) (kind : CommandKind) (minArgs maxArgs firstKey : UInt8) (lastKey : Int)

/-- A command whose keys stand at fixed positions, one after the other. -/
def fixed : CommandSpec := ⟨name, kind, minArgs, maxArgs, firstKey, lastKey, 1, false⟩

/-- A command whose arguments say where its keys stand. -/
def movable : CommandSpec := ⟨name, kind, minArgs, maxArgs, firstKey, lastKey, 1, true⟩

end CommandSpec

/-- `kCommandTable`; MSET and MSETNX step over the values between their keys. -/
def commandTable : List CommandSpec :=
  [ .keyless "ping" .ping 1 2, .keyless "echo" .echo 2 2, .keyless "publish" .publish 3 3,
    .keyless "pubsub" .pubsub 2 0, .keyless "psubscribe" .psubscribe 2 0,
    .keyless "punsubscribe" .punsubscribe 1 0, .keyless "subscribe" .subscribe 2 0,
    .keyless "unsubscribe" .unsubscribe 1 0, .keyless "quit" .quit 1 1, .keyless "reset" .reset 1 1,
    .keyless "auth" .auth 2 3, .keyless "hello" .hello 1 7, .keyless "select" .select 2 2,
    .movable "eval" .eval 3 0 0 0, .movable "evalsha" .evalsha 3 0 0 0,
    .movable "eval_ro" .evalro 3 0 0 0, .movable "evalsha_ro" .evalsharo 3 0 0 0,
    .keyless "script" .script 2 0, .movable "fcall" .fcall 3 0 0 0,
    .movable "fcall_ro" .fcallro 3 0 0 0, .keyless "function" .function 2 0,
    .keyless "dbsize" .dbsize 1 1, .keyless "scan" .scan 2 0, .fixed "type" .type 2 2 1 1,
    .fixed "dump" .dump 2 2 1 1, .fixed "restore" .restore 4 0 1 1, .movable "sort" .sort 2 0 1 1,
    .fixed "sort_ro" .sortro 2 0 1 1, .keyless "randomkey" .randomkey 1 1,
    .keyless "flushdb" .flushdb 1 0, .keyless "flushall" .flushall 1 0, .fixed "get" .get 2 2 1 1,
    .fixed "getdel" .getdel 2 2 1 1, .fixed "getex" .getex 2 0 1 1,
    .fixed "getrange" .getrange 4 4 1 1, .fixed "getset" .getset 3 3 1 1,
    .fixed "append" .append 3 3 1 1, .fixed "getbit" .getbit 3 3 1 1,
    .fixed "setbit" .setbit 4 4 1 1, .fixed "bitcount" .bitcount 2 0 1 1,
    .fixed "bitpos" .bitpos 3 0 1 1, .fixed "bitfield" .bitfield 2 0 1 1,
    .fixed "bitfield_ro" .bitfieldro 2 0 1 1, .fixed "bitop" .bitop 4 0 2 (-1),
    .fixed "set" .set 3 0 1 1, .fixed "setex" .setex 4 4 1 1, .fixed "psetex" .psetex 4 4 1 1,
    .fixed "setnx" .setnx 3 3 1 1, .fixed "setrange" .setrange 4 4 1 1,
    .fixed "substr" .substr 4 4 1 1, .fixed "lcs" .lcs 3 0 1 2, .fixed "lpush" .lpush 3 0 1 1,
    .fixed "lpushx" .lpushx 3 0 1 1, .fixed "rpush" .rpush 3 0 1 1, .fixed "rpushx" .rpushx 3 0 1 1,
    .fixed "lpop" .lpop 2 3 1 1, .fixed "rpop" .rpop 2 3 1 1, .fixed "llen" .llen 2 2 1 1,
    .fixed "lindex" .lindex 3 3 1 1, .fixed "lrange" .lrange 4 4 1 1, .fixed "lset" .lset 4 4 1 1,
    .fixed "linsert" .linsert 5 5 1 1, .fixed "lrem" .lrem 4 4 1 1, .fixed "ltrim" .ltrim 4 4 1 1,
    .fixed "lpos" .lpos 3 0 1 1, .fixed "lmove" .lmove 5 5 1 2,
    .fixed "rpoplpush" .rpoplpush 3 3 1 2, .movable "lmpop" .lmpop 4 0 2 0,
    .fixed "blpop" .blpop 3 0 1 (-2), .fixed "brpop" .brpop 3 0 1 (-2),
    .fixed "blmove" .blmove 6 6 1 2, .fixed "brpoplpush" .brpoplpush 4 4 1 2,
    .movable "blmpop" .blmpop 5 0 3 0, .fixed "hset" .hset 4 0 1 1, .fixed "hmset" .hmset 4 0 1 1,
    .fixed "lavik.hreplace" .hreplace 4 0 1 1, .fixed "hsetnx" .hsetnx 4 4 1 1,
    .fixed "hget" .hget 3 3 1 1, .fixed "hmget" .hmget 3 0 1 1, .fixed "hdel" .hdel 3 0 1 1,
    .fixed "hlen" .hlen 2 2 1 1, .fixed "hexists" .hexists 3 3 1 1,
    .fixed "hgetall" .hgetall 2 2 1 1, .fixed "hkeys" .hkeys 2 2 1 1, .fixed "hvals" .hvals 2 2 1 1,
    .fixed "hstrlen" .hstrlen 3 3 1 1, .fixed "hincrby" .hincrby 4 4 1 1,
    .fixed "hincrbyfloat" .hincrbyfloat 4 4 1 1, .fixed "hrandfield" .hrandfield 2 4 1 1,
    .fixed "hscan" .hscan 3 0 1 1, .fixed "sadd" .sadd 3 0 1 1, .fixed "scard" .scard 2 2 1 1,
    .fixed "sdiff" .sdiff 2 0 1 (-1), .fixed "sdiffstore" .sdiffstore 3 0 1 (-1),
    .fixed "sinter" .sinter 2 0 1 (-1), .movable "sintercard" .sintercard 3 0 2 0,
    .fixed "sinterstore" .sinterstore 3 0 1 (-1), .fixed "sismember" .sismember 3 3 1 1,
    .fixed "smembers" .smembers 2 2 1 1, .fixed "smismember" .smismember 3 0 1 1,
    .fixed "smove" .smove 4 4 1 2, .fixed "spop" .spop 2 3 1 1,
    .fixed "srandmember" .srandmember 2 3 1 1, .fixed "srem" .srem 3 0 1 1,
    .fixed "sscan" .sscan 3 0 1 1, .fixed "sunion" .sunion 2 0 1 (-1),
    .fixed "sunionstore" .sunionstore 3 0 1 (-1), .movable "bzmpop" .bzmpop 5 0 3 0,
    .fixed "bzpopmax" .bzpopmax 3 0 1 (-2), .fixed "bzpopmin" .bzpopmin 3 0 1 (-2),
    .fixed "zadd" .zadd 4 0 1 1, .fixed "zcard" .zcard 2 2 1 1, .fixed "zcount" .zcount 4 4 1 1,
    .fixed "zincrby" .zincrby 4 4 1 1, .fixed "zlexcount" .zlexcount 4 4 1 1,
    .movable "zmpop" .zmpop 4 0 2 0, .fixed "zmscore" .zmscore 3 0 1 1,
    .fixed "zpopmax" .zpopmax 2 3 1 1, .fixed "zpopmin" .zpopmin 2 3 1 1,
    .fixed "zrandmember" .zrandmember 2 4 1 1, .fixed "zrange" .zrange 4 0 1 1,
    .fixed "zrangestore" .zrangestore 5 0 1 2, .fixed "zrangebylex" .zrangebylex 4 0 1 1,
    .fixed "zrangebyscore" .zrangebyscore 4 0 1 1, .fixed "zrank" .zrank 3 0 1 1,
    .fixed "zrem" .zrem 3 0 1 1, .fixed "zremrangebylex" .zremrangebylex 4 4 1 1,
    .fixed "zremrangebyrank" .zremrangebyrank 4 4 1 1,
    .fixed "zremrangebyscore" .zremrangebyscore 4 4 1 1, .fixed "zrevrange" .zrevrange 4 0 1 1,
    .fixed "zrevrangebylex" .zrevrangebylex 4 0 1 1,
    .fixed "zrevrangebyscore" .zrevrangebyscore 4 0 1 1, .fixed "zrevrank" .zrevrank 3 0 1 1,
    .fixed "zscan" .zscan 3 0 1 1, .fixed "zscore" .zscore 3 3 1 1, .movable "zdiff" .zdiff 3 0 2 0,
    .movable "zdiffstore" .zdiffstore 4 0 3 0, .movable "zinter" .zinter 3 0 2 0,
    .movable "zintercard" .zintercard 3 0 2 0, .movable "zinterstore" .zinterstore 4 0 3 0,
    .movable "zunion" .zunion 3 0 2 0, .movable "zunionstore" .zunionstore 4 0 3 0,
    .fixed "geoadd" .geoadd 5 0 1 1, .fixed "geodist" .geodist 4 5 1 1,
    .fixed "geohash" .geohash 2 0 1 1, .fixed "geopos" .geopos 2 0 1 1,
    .movable "georadius" .georadius 6 0 1 1, .fixed "georadius_ro" .georadiusro 6 0 1 1,
    .movable "georadiusbymember" .georadiusbymember 5 0 1 1,
    .fixed "georadiusbymember_ro" .georadiusbymemberro 5 0 1 1,
    .fixed "geosearch" .geosearch 7 0 1 1, .fixed "geosearchstore" .geosearchstore 8 0 1 2,
    .fixed "xadd" .xadd 5 0 1 1, .fixed "xdel" .xdel 3 0 1 1, .fixed "xlen" .xlen 2 2 1 1,
    .fixed "xrange" .xrange 4 6 1 1, .fixed "xrevrange" .xrevrange 4 6 1 1,
    .fixed "xtrim" .xtrim 4 7 1 1, .fixed "xsetid" .xsetid 3 7 1 1,
    .movable "xgroup" .xgroup 2 8 2 2, .fixed "xack" .xack 4 0 1 1,
    .fixed "xpending" .xpending 3 9 1 1, .fixed "xclaim" .xclaim 6 0 1 1,
    .fixed "xautoclaim" .xautoclaim 6 9 1 1, .movable "xinfo" .xinfo 2 6 2 2,
    .movable "xread" .xread 4 0 0 0, .movable "xreadgroup" .xreadgroup 7 0 0 0,
    .fixed "strlen" .strlen 2 2 1 1, .fixed "incr" .incr 2 2 1 1, .fixed "incrby" .incrby 3 3 1 1,
    .fixed "incrbyfloat" .incrbyfloat 3 3 1 1, .fixed "decr" .decr 2 2 1 1,
    .fixed "decrby" .decrby 3 3 1 1, .fixed "expire" .expire 3 4 1 1,
    .fixed "pexpire" .pexpire 3 4 1 1, .fixed "expireat" .expireat 3 4 1 1,
    .fixed "pexpireat" .pexpireat 3 4 1 1, .fixed "persist" .persist 2 2 1 1,
    .fixed "ttl" .ttl 2 2 1 1, .fixed "pttl" .pttl 2 2 1 1, .fixed "expiretime" .expiretime 2 2 1 1,
    .fixed "pexpiretime" .pexpiretime 2 2 1 1, .fixed "del" .del 2 0 1 (-1),
    .fixed "unlink" .unlink 2 0 1 (-1), .fixed "rename" .rename 3 3 1 2,
    .fixed "renamenx" .renamenx 3 3 1 2, .fixed "copy" .copy 3 0 1 2,
    .fixed "exists" .exists 2 0 1 (-1), .fixed "touch" .touch 2 0 1 (-1),
    ⟨"mset", .mset, 3, 0, 1, -1, 2, false⟩, ⟨"msetnx", .msetnx, 3, 0, 1, -1, 2, false⟩,
    .fixed "mget" .mget 2 0 1 (-1), .keyless "multi" .multi 1 1, .keyless "exec" .exec 1 1,
    .keyless "discard" .discard 1 1, .fixed "watch" .watch 2 0 1 (-1),
    .keyless "unwatch" .unwatch 1 1, .keyless "client" .client 2 0,
    .keyless "replicaof" .replicaof 3 3, .keyless "slaveof" .replicaof 3 3,
    .keyless "addreplicaof" .addreplicaof 3 3, .keyless "config" .config 2 4,
    .keyless "info" .info 1 2, .keyless "role" .role 1 1, .keyless "wait" .wait 3 3,
    .keyless "cluster" .cluster 2 0, .keyless "command" .command 1 0,
    .keyless "readonly" .readonly 1 1, .keyless "readwrite" .readwrite 1 1,
    .keyless "keys" .keys 2 2, .keyless "save" .save 1 1, .keyless "bgsave" .bgsave 1 1,
    .keyless "lastsave" .lastsave 1 1, .keyless "monitor" .monitor 1 1,
    .keyless "slowlog" .slowlog 2 3, .keyless "tombraider" .tombraider 2 3,
    .keyless "defrag" .defrag 2 3 ]

structure KeyIndexView where
  first : UInt16 := 0
  last : UInt16 := 0
  step : UInt8 := 1
deriving DecidableEq, Repr

def keyRange (first last step : Nat) : List Nat :=
  List.range' first ((last + step - first) / step) step

def KeyIndexView.positions (view : KeyIndexView) : List Nat :=
  if view.first = 0 then [] else keyRange view.first.toNat view.last.toNat view.step.toNat

def equalsIgnoreCase (name lower : Text) : Bool := name.map lowered == lower

namespace CommandSpec

variable (spec : CommandSpec)

def arityMessage : String :=
  "wrong number of arguments for '" ++ spec.name ++ "' command"

/-- The number of arguments is outside the range of the specification. -/
def WrongCount (argc : Nat) : Prop :=
  argc < spec.minArgs.toNat ∨ (spec.maxArgs ≠ 0 ∧ spec.maxArgs.toNat < argc)

instance WrongCount.decidable (spec : CommandSpec) (argc : Nat) :
    Decidable (spec.WrongCount argc) := inferInstanceAs (Decidable (_ ∨ _))

def lastKeyIndex (argc : Nat) : Int :=
  if 0 ≤ spec.lastKey then spec.lastKey else argc + spec.lastKey

end CommandSpec

def determineKeysByCount (spec : CommandSpec) (argc : Nat) : StatusOr KeyIndexView := do
  refuseIf (spec.WrongCount argc) .invalidArgument spec.arityMessage
  if spec.firstKey = 0 then
    return {}
  let last := spec.lastKeyIndex argc
  refuseIf (last < spec.firstKey.toNat ∨ (argc : Int) ≤ last) .invalidArgument spec.arityMessage
  return ⟨spec.firstKey.toUInt16, UInt16.ofNat last.toNat, spec.keyStep⟩

variable (args : List Text)

def argument (index : Nat) : Text := args.getD index []

def scriptKinds : List CommandKind := [.eval, .evalsha, .evalro, .evalsharo, .fcall, .fcallro]

def determineScriptKeys : StatusOr KeyIndexView := do
  let some keyCount := parseRedisInt64 (argument args 2)
    | .error ⟨.invalidArgument, "value is not an integer or out of range"⟩
  refuseIf (keyCount < 0) .invalidArgument "Number of keys can't be negative"
  refuseIf (args.length - 3 < keyCount.toNat) .invalidArgument
    "Number of keys can't be greater than number of args"
  if keyCount = 0 then
    return {}
  refuseIf (65535 < keyCount) .invalidArgument "too many script keys"
  return ⟨3, UInt16.ofNat (2 + keyCount.toNat), 1⟩

/-- The scan for the destination of a SORT: the argument after the last `STORE`. The first argument
is the index of the first token. -/
def scanDestination : Nat → List Text → Option Nat → Option Nat
  | index, token :: next :: rest, destination =>
    scanDestination (index + 1) (next :: rest)
      (if equalsIgnoreCase token (text "store") then some (index + 1) else destination)
  | _, _, destination => destination

def determineSortKeys : StatusOr KeyIndexView := do
  let some destination := scanDestination 2 (args.drop 2) none
    | return ⟨1, 1, 1⟩
  refuseIf (255 < destination - 1) .invalidArgument "too many arguments for SORT routing"
  return ⟨1, UInt16.ofNat destination, UInt8.ofNat (destination - 1)⟩

def streamsIndex (optionBegin : Nat) : Nat :=
  match (args.drop optionBegin).findIdx? fun token => equalsIgnoreCase token (text "streams") with
  | some index => optionBegin + index
  | none => args.length

def unbalancedMessage (command special : String) : String :=
  "Unbalanced '" ++ command ++ "' list of streams: for each stream key an ID or '" ++ special ++
    "' must be specified."

def determineStreamKeys (kind : CommandKind) (args : List Text) : StatusOr KeyIndexView := do
  let streams := streamsIndex args (if kind = .xreadgroup then 4 else 1)
  let remaining := args.length - min (streams + 1) args.length
  refuseIf (streams = args.length ∨ remaining < 2 ∨ remaining % 2 ≠ 0) .invalidArgument
    (if kind = .xreadgroup then unbalancedMessage "xreadgroup" ">"
      else unbalancedMessage "xread" "$")
  let keys := remaining / 2
  refuseIf (65535 < streams + 1 ∨ 65535 - streams < keys) .invalidArgument
    "too many arguments for stream key routing"
  return ⟨UInt16.ofNat (streams + 1), UInt16.ofNat (streams + keys), 1⟩

def aggregateKinds : List CommandKind :=
  [.zdiff, .zdiffstore, .zinter, .zintercard, .zinterstore, .zunion, .zunionstore]

def aggregateStoreKinds : List CommandKind := [.zdiffstore, .zinterstore, .zunionstore]

variable (spec : CommandSpec)

def determineAggregateKeys (args : List Text) : StatusOr KeyIndexView := do
  let countIndex := if spec.kind ∈ aggregateStoreKinds then 2 else 1
  let first := countIndex + 1
  let some keyCount := whole (fromCharsInt64 (argument args countIndex))
    | .error ⟨.invalidArgument, "value is not an integer or out of range"⟩
  refuseIf (keyCount < 1) .invalidArgument
    ("at least 1 input key is needed for '" ++ spec.name ++ "' command")
  refuseIf (args.length - first < keyCount.toNat ∨ 65535 < first + keyCount.toNat - 1)
    .invalidArgument "syntax error"
  return ⟨UInt16.ofNat first, UInt16.ofNat (first + keyCount.toNat - 1), 1⟩

def limitPairs : List Text → Bool
  | option :: _ :: rest => equalsIgnoreCase option (text "limit") && limitPairs rest
  | _ => true

def determineCountedKeys (args : List Text) : StatusOr KeyIndexView := do
  let countArg := if spec.kind = .blmpop ∨ spec.kind = .bzmpop then 2 else 1
  let token := argument args countArg
  refuseIf ((spec.kind = .zmpop ∨ spec.kind = .bzmpop) ∧ ¬ (parseRedisInt64 token).any (0 < ·))
    .invalidArgument "numkeys should be greater than 0"
  let parsed := whole (fromCharsUInt64 token)
  let first := countArg + 1
  let sintercard : Bool := spec.kind = .sintercard
  refuseIf (sintercard ∧ ¬ parsed.any (0 < ·)) .invalidArgument "numkeys should be greater than 0"
  let some count := parsed.filter fun count => 0 < count && first + count - 1 ≤ 65535 &&
      (if sintercard then count ≤ args.length - first else count < args.length - first)
    | .error ⟨.invalidArgument,
        if sintercard then "Number of keys can't be greater than number of args"
        else spec.arityMessage⟩
  refuseIf (sintercard ∧ ((args.length - (first + count)) % 2 ≠ 0 ∨
    ¬ limitPairs (args.drop (first + count)))) .invalidArgument "syntax error"
  return ⟨UInt16.ofNat first, UInt16.ofNat (first + count - 1), 1⟩

def determineMovableKeys (args : List Text) : StatusOr KeyIndexView :=
  if spec.kind = .xgroup ∨ spec.kind = .xinfo then
    if args.length = 2 ∧ equalsIgnoreCase (argument args 1) (text "help") then .ok {}
    else determineKeysByCount spec args.length
  else if spec.kind ∈ scriptKinds then determineScriptKeys args
  else if spec.kind = .sort then determineSortKeys args
  else if spec.kind = .xread ∨ spec.kind = .xreadgroup then determineStreamKeys spec.kind args
  else if spec.kind = .georadius ∨ spec.kind = .georadiusbymember then
    -- The optional STORE/STOREDIST destination is parsed by the GEO transaction handler.
    .ok ⟨1, 1, 1⟩
  else if spec.kind ∈ aggregateKinds then determineAggregateKeys spec args
  else determineCountedKeys spec args

def determineKeys (args : List Text) : StatusOr KeyIndexView :=
  if !spec.movableKeys then determineKeysByCount spec args.length
  else do
    refuseIf (spec.WrongCount args.length) .invalidArgument spec.arityMessage
    determineMovableKeys spec args

end Lavik.Redis

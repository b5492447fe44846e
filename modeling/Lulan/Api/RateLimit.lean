import Lulan.Lib.IpAddr
import Lulan.Holds.Redis

/-!
# The rate limiter

Per-caller sliding windows: one sorted set in Redis for each caller and bucket, read and written
by one script. Times are milliseconds.
-/

namespace Lulan.RateLimit

open Holds (Key pexpire)

def windowSecs : Nat := 60

def defaultWriteLimit : Nat := 300

def defaultReadLimit : Nat := 1200

abbrev Bytes : Type := List UInt8

inductive Method where
  | get
  | head
  | other (name : String)
deriving DecidableEq

/-- A request as the router hands it over: header names in lower case, one entry for each header
line, and the address of the connection where it is known. -/
structure Request where
  method : Method
  path : String
  headers : List (String × Bytes)
  peer : Option Lib.IpAddr
deriving DecidableEq

/-- The environment variables, SHA-256, and whether a Redis is configured. -/
structure Config where
  var : String → Option String
  sha256 : Bytes → Bytes
  redis : Bool

/-- A variable read as an unsigned integer of 64 bits. -/
def envU64 (cfg : Config) (key : String) (default : Nat) : Nat :=
  (((cfg.var key).bind (fun v => Lib.Text.parseUnsigned v.toList)).filter (fun n => n < 2 ^ 64)).getD default

/-- How many reverse proxies sit in front of this process. -/
def trustedProxyHops (cfg : Config) : Nat := envU64 cfg "LULAN_TRUSTED_PROXY_HOPS" 0

/-! ### Who to charge -/

/-- `HeaderMap::get`: the first line of that name. -/
def Request.header (req : Request) (name : String) : Option Bytes :=
  (req.headers.find? (fun h => h.1 = name)).map Prod.snd

def visible (b : UInt8) : Bool := (32 ≤ b && b < 127) || b == 9

/-- `HeaderValue::to_str`. -/
def toStr (value : Bytes) : Option (List Char) :=
  if value.all visible then some (value.map (fun b => Char.ofNat b.toNat)) else none

def blank (c : Char) : Bool := c == ' ' || c == '\t'

/-- `str::trim`, on text that `to_str` admits. -/
def trimmed (s : List Char) : List Char := ((s.dropWhile blank).reverse.dropWhile blank).reverse

/-- The parts of a header line between its commas. -/
def entries (line : List Char) : List (List Char) := (line.splitOn ',').map trimmed

/-- The address to attribute this request to. -/
def clientIp (req : Request) (hops : Nat) : Option Lib.IpAddr :=
  if hops = 0 then req.peer
  else
    let forwarded := (((req.header "x-forwarded-for").bind toStr).map entries).getD []
    let entry := if hops ≤ forwarded.length then forwarded[forwarded.length - hops]? else none
    (entry.bind Lib.IpAddr.parse).or req.peer

/-- The credential a request carries, as text. -/
def credential (req : Request) : Option (List Char) :=
  ((req.header "x-api-key").or (req.header "authorization")).bind toStr

/-- `key:` and the first four bytes of the credential's digest, `ip:` and an address, or
`ip:unknown`. -/
inductive Caller where
  | key (digest : Bytes)
  | ip (address : Lib.IpAddr)
  | unknown
deriving DecidableEq

def callerKey (sha256 : Bytes → Bytes) (req : Request) (hops : Nat) : Caller :=
  match credential req with
  | some key => .key ((sha256 (key.map (fun c => UInt8.ofNat c.toNat))).take 4)
  | none =>
    match clientIp req hops with
    | some ip => .ip ip
    | none => .unknown

/-! ### The script -/

/-- The member `now_ms-uuid` and its score. -/
structure Entry where
  member : Nat × Uuid
  score : Nat
deriving DecidableEq

/-- `ZADD`: a member is in the set once. -/
def zadd (set : List Entry) (entry : Entry) : List Entry :=
  if set.any (fun e => e.member = entry.member) then
    set.map (fun e => if e.member = entry.member then entry else e)
  else set ++ [entry]

/-- `ZREMRANGEBYSCORE key 0 max`. -/
def zremrangebyscore (set : List Entry) (max : Int) : List Entry := set.filter (fun e => max < (e.score : Int))

/-- What a key holds at the time. -/
def visibleSet (clock : Nat) (key : Option (Key (List Entry))) : List Entry := (Key.get clock key).getD []

/-- `LUA`: drop old entries, count, conditionally add. `clock` is the time of Redis. -/
def script (clock : Nat) (key : Option (Key (List Entry))) (now window limit : Nat) (member : Nat × Uuid) :
    Nat × Option (Key (List Entry)) :=
  let kept := zremrangebyscore (visibleSet clock key) ((now : Int) - window)
  if limit ≤ kept.length then (0, if kept.isEmpty then none else key.map (fun k => { k with value := kept }))
  else (1, pexpire (zadd kept ⟨member, now⟩) clock window)

/-! ### The middleware -/

inductive Bucket where
  | r
  | w
deriving DecidableEq

def Request.bucket (req : Request) : Bucket :=
  match req.method with
  | .get => .r
  | .head => .r
  | .other _ => .w

def Bucket.limit (cfg : Config) : Bucket → Nat
  | .r => envU64 cfg "LULAN_RATE_LIMIT_READS" defaultReadLimit
  | .w => envU64 cfg "LULAN_RATE_LIMIT" defaultWriteLimit

/-- The sorted sets, by bucket and caller. -/
abbrev Sets : Type := Bucket × Caller → Option (Key (List Entry))

/-- What becomes of a request: `unlimited` ones are passed on without being counted. -/
inductive Decision where
  | unlimited
  | admitted
  | refused
deriving DecidableEq

/-- A request, the time it was stamped with, the time of Redis when its script ran, the random
part of its member, and whether Redis answered. -/
structure Arrival where
  request : Request
  now : Nat
  clock : Nat
  id : Uuid
  answers : Bool
deriving DecidableEq

def Arrival.key (cfg : Config) (a : Arrival) : Bucket × Caller :=
  (a.request.bucket, callerKey cfg.sha256 a.request (trustedProxyHops cfg))

/-- `limit`. A limiter that Redis does not answer fails open. -/
def limit (cfg : Config) (sets : Sets) (a : Arrival) : Decision × Sets :=
  if !"/v1".toList.isPrefixOf a.request.path.toList then (.unlimited, sets)
  else if !cfg.redis then (.unlimited, sets)
  else if !a.answers then (.unlimited, sets)
  else
    let key := a.key cfg
    let cap := a.request.bucket.limit cfg
    let (allowed, set) := script a.clock (sets key) a.now (windowSecs * 1000) cap (a.now, a.id)
    (if allowed = 0 then .refused else .admitted, Function.update sets key set)

/-- The sets after a run. -/
def after (cfg : Config) (arrivals : List Arrival) : Sets :=
  arrivals.foldl (fun sets a => (limit cfg sets a).2) (fun _ => none)

/-- What becomes of a request that arrives after the others. -/
def decision (cfg : Config) (before : List Arrival) (a : Arrival) : Decision := (limit cfg (after cfg before) a).1

end Lulan.RateLimit

import FeedPoller.Node
import FeedPoller.Settings

/-! The configuration of the service, in four sections. Every field has a default, and so has every
section. -/

namespace FeedPoller

/-- The poll settings as they are written; times are in whole seconds. -/
structure PollSection where
  maxHistory : Nat := 200
  skipDuplicates : Bool := false
  enabled : Bool := true
  rateLimit : Option Nat := none
  rateWindowSecs : Option Nat := none
  ratePeriod : Option Nat := none
  autoDelay : Bool := false
  intervalSecs : Nat := 60
  query : Json.Fields := []
  deriving Repr

/-- Which feed is polled, and where. Search may have an address of its own. -/
structure SourceSection where
  path : String := "public"
  baseUrl : String := "http://127.0.0.1:9000/1/"
  searchUrl : Option String := none
  timeoutSecs : Nat := 10
  deriving Repr

/-- The background credentials as they are written. -/
structure CredentialsSection where
  consumerToken : Option String := none
  consumerSecret : Option String := none
  userToken : Option String := none
  userSecret : Option String := none
  deriving Repr

structure ServerSection where
  bind : String := "0.0.0.0:8000"
  deriving Repr

structure Config where
  poll : PollSection := {}
  source : SourceSection := {}
  credentials : CredentialsSection := {}
  server : ServerSection := {}
  deriving Repr

/-! ## Reading

Sections are records: tables by field name, or lists in the order of the fields below. -/

open Node (Read Slot natBelow optional bool? str? fields? record)

def PollSection.slots : List (Slot PollSection) := [
  ⟨"max_history", fun n r => do return { r with maxHistory := ← natBelow 0x10000000000000000 n }⟩,
  ⟨"skip_duplicates", fun n r => do return { r with skipDuplicates := ← bool? n }⟩,
  ⟨"enabled", fun n r => do return { r with enabled := ← bool? n }⟩,
  ⟨"rate_limit", fun n r => do
    return { r with rateLimit := ← optional (natBelow 0x100000000) n }⟩,
  ⟨"rate_window_secs", fun n r => do
    return { r with rateWindowSecs := ← optional (natBelow 0x10000000000000000) n }⟩,
  ⟨"rate_limit_period", fun n r => do
    return { r with ratePeriod := ← optional (natBelow 0x100000000) n }⟩,
  ⟨"auto_delay", fun n r => do return { r with autoDelay := ← bool? n }⟩,
  ⟨"interval_secs", fun n r => do return { r with intervalSecs := ← natBelow 0x10000000000000000 n }⟩,
  ⟨"query", fun n r => do return { r with query := ← fields? n }⟩]

def SourceSection.slots : List (Slot SourceSection) := [
  ⟨"path", fun n r => do return { r with path := ← str? n }⟩,
  ⟨"base_url", fun n r => do return { r with baseUrl := ← str? n }⟩,
  ⟨"search_url", fun n r => do return { r with searchUrl := ← optional str? n }⟩,
  ⟨"timeout_secs", fun n r => do return { r with timeoutSecs := ← natBelow 0x10000000000000000 n }⟩]

def CredentialsSection.slots : List (Slot CredentialsSection) := [
  ⟨"consumer_token", fun n r => do return { r with consumerToken := ← optional str? n }⟩,
  ⟨"consumer_secret", fun n r => do return { r with consumerSecret := ← optional str? n }⟩,
  ⟨"user_token", fun n r => do return { r with userToken := ← optional str? n }⟩,
  ⟨"user_secret", fun n r => do return { r with userSecret := ← optional str? n }⟩]

def ServerSection.slots : List (Slot ServerSection) := [
  ⟨"bind", fun n r => do return { r with bind := ← str? n }⟩]

/-- The sections; in a format with `openEnded` records a list may be longer than its record. -/
def Config.slots (openEnded : Bool) : List (Slot Config) := [
  ⟨"poll", fun n r => do
    return { r with poll := ← record PollSection.slots [] openEnded {} n }⟩,
  ⟨"source", fun n r => do
    return { r with source := ← record SourceSection.slots [] openEnded {} n }⟩,
  ⟨"credentials", fun n r => do
    return { r with credentials := ← record CredentialsSection.slots [] openEnded {} n }⟩,
  ⟨"server", fun n r => do
    return { r with server := ← record ServerSection.slots [] openEnded {} n }⟩]

def Config.ofNode (openEnded : Bool) : Node → Read Config :=
  record (Config.slots openEnded) [] openEnded {}

/-! ## Writing -/

open Json (Value)

def PollSection.value (s : PollSection) : Value :=
  .ofFields [
    ("max_history", .nat s.maxHistory),
    ("skip_duplicates", .bool s.skipDuplicates),
    ("enabled", .bool s.enabled),
    ("rate_limit", .ofOption .nat s.rateLimit),
    ("rate_window_secs", .ofOption .nat s.rateWindowSecs),
    ("rate_limit_period", .ofOption .nat s.ratePeriod),
    ("auto_delay", .bool s.autoDelay),
    ("interval_secs", .nat s.intervalSecs),
    ("query", .object s.query)]

def SourceSection.value (s : SourceSection) : Value :=
  .ofFields [
    ("path", .str s.path),
    ("base_url", .str s.baseUrl),
    ("search_url", .ofOption .str s.searchUrl),
    ("timeout_secs", .nat s.timeoutSecs)]

def CredentialsSection.value (s : CredentialsSection) : Value :=
  .ofFields [
    ("consumer_token", .ofOption .str s.consumerToken),
    ("consumer_secret", .ofOption .str s.consumerSecret),
    ("user_token", .ofOption .str s.userToken),
    ("user_secret", .ofOption .str s.userSecret)]

def ServerSection.value (s : ServerSection) : Value := .ofFields [("bind", .str s.bind)]

/-- The whole configuration, absent options as nulls. -/
def Config.value (c : Config) : Value :=
  .ofFields [
    ("poll", c.poll.value),
    ("source", c.source.value),
    ("credentials", c.credentials.value),
    ("server", c.server.value)]

/-! ## Settings -/

def PollSection.settings (s : PollSection) : Settings where
  maxHistory := s.maxHistory
  skipDuplicates := s.skipDuplicates
  pollEnabled := s.enabled
  rateLimit := s.rateLimit
  rateWindow := s.rateWindowSecs.map .ofSecs
  ratePeriod := s.ratePeriod
  autoDelay := s.autoDelay
  pollInterval := .ofSecs s.intervalSecs
  query := s.query

/-- The settings of the poll section, once they are found valid. -/
def Config.settings (c : Config) : Except ConfigFailure Settings := do
  c.poll.settings.validate
  return c.poll.settings

end FeedPoller

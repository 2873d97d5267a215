import CommonLibrary.Utils.AsyncLogWriter
import Mathlib.Tactic.Common

/-!
# The logger

`LogContextCapturer`s collect what is put into a record, `Logger::Write` gives the record to
the writer, and the thread of the writer formats it for every channel.  A capturer is used by
one thread at a time; `Write` is entered by the thread that ends the line.
-/

namespace CommonLibrary.Utils

open Foundation Thread

abbrev CtxId := Nat
abbrev CapId := Nat
abbrev ChannelId := Nat

inductive LogLevel where
  | trace
  | debug
  | info
  | warn
  | error
  deriving DecidableEq

namespace LogLevel

def toNat : LogLevel → Nat
  | trace => 0
  | debug => 1
  | info => 2
  | warn => 3
  | error => 4

/-- `s_log_const_table[level][1]`. -/
def color : LogLevel → String
  | trace => "\x1b[34m"
  | debug => "\x1b[32m"
  | info => "\x1b[36m"
  | warn => "\x1b[33m"
  | error => "\x1b[31m"

/-- `s_log_const_table[level][2]`. -/
def letter : LogLevel → String
  | trace => "T"
  | debug => "D"
  | info => "I"
  | warn => "W"
  | error => "E"

end LogLevel

def CLEAR_COLOR : String := "\x1b[0m"

structure Timeval where
  sec : Int := 0
  usec : Int := 0

structure Tm where
  year : Int := 0
  mon : Int := 0
  mday : Int := 0
  hour : Int := 0
  min : Int := 0
  sec : Int := 0

/-- `%0<width>d`. -/
def padded (width : Nat) (n : Int) : String :=
  let sign := if n < 0 then "-" else ""
  let digits := toString n.natAbs
  sign ++ "".pushn '0' (width - sign.length - digits.length) ++ digits

/-- `print_time`, where `localtime` is the C library's. -/
def printTime (localtime : Int → Tm) (tv : Timeval) : String :=
  let tm := localtime tv.sec
  toString (1900 + tm.year) ++ "-" ++ padded 2 (1 + tm.mon) ++ "-" ++ padded 2 tm.mday ++ " " ++
    padded 2 tm.hour ++ ":" ++ padded 2 tm.min ++ ":" ++ padded 2 tm.sec ++ "." ++
    padded 3 (tv.usec.tdiv 1000)

example : printTime (fun _ => ⟨126, 6, 4, 13, 5, 9⟩) ⟨0, 7999⟩ = "2026-07-04 13:05:09.007" := by
  decide

structure LogContext where
  level : LogLevel := .trace
  line : Int := 0
  file : String := ""
  tid : Nat := 0
  function : String := ""
  tv : Timeval := {}
  /-- what has been put into the stream -/
  str : String := ""

structure LogChannel where
  name : String := ""
  level : LogLevel := .trace

/-- What the lines have from the process. -/
structure LogEnv where
  loggerName : String
  pid : Nat
  localtime : Int → Tm

/-- What `LogChannel::format` writes. -/
def LogChannel.format (env : LogEnv) (ctx : LogContext) (enableColor enableDetail : Bool) :
    Option String :=
  if !enableDetail && ctx.str.isEmpty then none
  else
    let detail :=
      env.loggerName ++ "[" ++ toString env.pid ++ "][" ++ toString ctx.tid ++ "]" ++ ctx.file ++
        ":" ++ toString ctx.line ++ " " ++ ctx.function ++ " | "
    some <|
      (if enableColor then ctx.level.color else "") ++ printTime env.localtime ctx.tv ++ " " ++
        ctx.level.letter ++ " " ++ (if enableDetail then detail else "") ++ ctx.str ++
        (if enableColor then CLEAR_COLOR else "") ++ "\n"

/-- What `ConsoleChannel::Write` writes. -/
def LogChannel.write (env : LogEnv) (channel : LogChannel) (ctx : LogContext) : Option String :=
  if channel.level.toNat > ctx.level.toNat then none else LogChannel.format env ctx true true

structure LogContextCapturer where
  pctx : Option CtxId := none
  /-- the thread that is in `Logger::Write` with the record -/
  writing : Option ThreadId := none
  /-- it has been constructed, and its destructor has not been called -/
  alive : Bool := false

namespace LogContextCapturer

def Ready (c : LogContextCapturer) : Prop := c.alive = true ∧ c.writing = none

instance (c : LogContextCapturer) : Decidable c.Ready := inferInstanceAs (Decidable (_ ∧ _))

/-- It may still put something into the record. -/
def Holds (c : LogContextCapturer) (x : CtxId) : Prop := c.pctx = some x ∧ c.writing = none

end LogContextCapturer

/-- Who calls `write_channels`: the thread of the writer, or the one that destroys it. -/
inductive Printer where
  | worker
  | destructor
  deriving DecidableEq

namespace Printer

def action : Printer → LogAction CtxId
  | worker => .worker
  | destructor => .destructor

/-- What it has still to pass on. -/
def batch (w : AsyncLogWriter CtxId) : Printer → List CtxId
  | worker => w.worker.batch
  | destructor => w.destructor.batch

end Printer

/-- A call of `write_channels`. -/
structure Printing where
  ctx : CtxId
  /-- history: the names in `channels_` when it began -/
  registered : List String := []
  /-- the channels that the loop has come to, each as it was then -/
  visited : List LogChannel := []

structure Logger where
  /-- the objects that the `shared_ptr`s point to -/
  channel : ChannelId → LogChannel := fun _ => {}
  nextChannel : ChannelId := 0
  /-- `channels_` -/
  channels : Std.TreeMap String ChannelId := ∅
  writer : Option (AsyncLogWriter CtxId) := none
  context : CtxId → LogContext := fun _ => {}
  nextContext : CtxId := 0
  capturer : CapId → LogContextCapturer := fun _ => {}
  nextCapturer : CapId := 0
  /-- what has been written to `std::cout` -/
  stdout : List String := []
  /-- the call of `write_channels` that the thread is in -/
  printing : Printer → Option Printing := fun _ => none
  /-- history: the calls of `write_channels` that have returned -/
  passed : List Printing := []
  /-- history: the records that `Clear` has released -/
  cleared : List CtxId := []
  /-- history: the records that were given to `Logger::Write` when there was no writer -/
  unwritten : List CtxId := []

inductive LoggerAction where
  | newChannel (name : String) (level : LogLevel)
  | addChannel (id : ChannelId)
  | removeChannel (name : String)
  /-- `Logger::SetLevel` -/
  | setLevel (level : LogLevel)
  /-- `SetLevel` of one channel -/
  | setChannelLevel (id : ChannelId) (level : LogLevel)
  | setWriter
  /-- the constructor of `LogContextCapturer` -/
  | capture (level : LogLevel) (file : String) (tid : Nat) (function : String) (line : Int)
      (tv : Timeval)
  /-- the copy constructor -/
  | copy (that : CapId)
  /-- `operator<<` -/
  | put (c : CapId) (data : String)
  /-- `operator<<` with a manipulator such as `std::endl`, up to `Post` in `Write` -/
  | endLine (t : ThreadId) (c : CapId)
  /-- the rest of it -/
  | post (t : ThreadId) (c : CapId)
  | clear (c : CapId)
  /-- the destructor of `LogContextCapturer`, up to `Post` in `Write` -/
  | destroy (t : ThreadId) (c : CapId)
  /-- the thread of the writer or the destructor of the writer, outside `write_channels` -/
  | writer (who : Printer)
  /-- the next round of the loop in `write_channels` -/
  | channel (who : Printer)

namespace Logger

def getChannel (l : Logger) (name : String) : Option ChannelId := l.channels[name]?

def addChannel (l : Logger) (id : ChannelId) : Logger :=
  { l with channels := l.channels.insert (l.channel id).name id }

def removeChannel (l : Logger) (name : String) : Logger :=
  { l with channels := l.channels.erase name }

/-- `LogChannel::SetLevel`. -/
def setChannelLevel (level : LogLevel) (l : Logger) (id : ChannelId) : Logger :=
  { l with channel := Function.update l.channel id { l.channel id with level := level } }

def setLevel (l : Logger) (level : LogLevel) : Logger :=
  l.channels.toList.foldl (fun l entry => l.setChannelLevel level entry.2) l

def names (l : Logger) : List String := l.channels.toList.map Prod.fst

/-- A step of the writer, in which it may call `write_channels`. -/
def writerStep (l : Logger) (who : Printer) : Option Logger :=
  if (l.printing who).isSome then none
  else
    l.writer.bind fun w => (w.step who.action).map fun w' => { l with
      writer := some w'
      printing := Function.update l.printing who <| (who.batch w).head?.map fun x =>
        { ctx := x, registered := l.names } }

/-- The loop of `Logger::write_channels` writes to the next channel, or is left. -/
def writeChannel (env : LogEnv) (l : Logger) (who : Printer) : Option Logger :=
  (l.printing who).map fun p =>
    match l.channels.toList[p.visited.length]? with
    | some it =>
        let channel := l.channel it.2
        { l with
          stdout := l.stdout ++ (channel.write env (l.context p.ctx)).toList
          printing := Function.update l.printing who
            (some { p with visited := p.visited ++ [channel] }) }
    | none => { l with
        printing := Function.update l.printing who none
        passed := l.passed ++ [p] }

def setCapturer (l : Logger) (c : CapId) (capturer : LogContextCapturer) : Logger :=
  { l with capturer := Function.update l.capturer c capturer }

/-- `operator<<` with a manipulator: `Logger::Write`, then the pointer is reset.  `alive` tells
whether the capturer goes on to exist. -/
def endLine (l : Logger) (t : ThreadId) (c : CapId) (alive : Bool) : Option Logger :=
  match (l.capturer c).pctx with
  | none => some (l.setCapturer c { alive := alive })
  | some x =>
      match l.writer with
      | none => some { l.setCapturer c { alive := alive } with unwritten := l.unwritten ++ [x] }
      | some w => (w.step (.append t x)).map fun w =>
          { l.setCapturer c { pctx := some x, writing := some t, alive := alive } with
            writer := some w }

def step (env : LogEnv) (l : Logger) : LoggerAction → Option Logger
  | .newChannel name level => some { l with
      channel := Function.update l.channel l.nextChannel ⟨name, level⟩
      nextChannel := l.nextChannel + 1 }
  | .addChannel id => if id < l.nextChannel then some (l.addChannel id) else none
  | .removeChannel name => some (l.removeChannel name)
  | .setLevel level => some (l.setLevel level)
  | .setChannelLevel id level =>
      if id < l.nextChannel then some (l.setChannelLevel level id) else none
  | .setWriter => some { l with writer := some {} }
  | .capture level file tid function line tv => some { l with
      context := Function.update l.context l.nextContext
        { level := level, file := file, tid := tid, function := function, line := line, tv := tv }
      nextContext := l.nextContext + 1
      capturer := Function.update l.capturer l.nextCapturer
        { pctx := some l.nextContext, alive := true }
      nextCapturer := l.nextCapturer + 1 }
  | .copy that =>
      if (l.capturer that).Ready then
        some { l with
          capturer := Function.update
            (Function.update l.capturer that { l.capturer that with pctx := none })
            l.nextCapturer { pctx := (l.capturer that).pctx, alive := true }
          nextCapturer := l.nextCapturer + 1 }
      else none
  | .put c data =>
      if (l.capturer c).Ready then
        match (l.capturer c).pctx with
        | none => some l
        | some x => some { l with
            context := Function.update l.context x
              { l.context x with str := (l.context x).str ++ data } }
      else none
  | .endLine t c => if (l.capturer c).Ready then l.endLine t c true else none
  | .post t c =>
      if (l.capturer c).writing = some t then
        (l.writer.bind fun w => w.step (.post t)).map fun w =>
          { l.setCapturer c { alive := (l.capturer c).alive } with writer := some w }
      else none
  | .clear c =>
      if (l.capturer c).Ready then
        some { l.setCapturer c { alive := true } with
          cleared := l.cleared ++ (l.capturer c).pctx.toList }
      else none
  | .destroy t c => if (l.capturer c).Ready then l.endLine t c false else none
  | .writer who => l.writerStep who
  | .channel who => l.writeChannel env who

/-- The writer is set once, and it is destroyed when nobody is in `Write` nor calls it anew.
`channels_`, which `write_channels` goes through without a lock, is not changed meanwhile. -/
def Admissible (l : Logger) : LoggerAction → Prop
  | .addChannel _ | .removeChannel _ => ∀ who, l.printing who = none
  | .setWriter => l.writer = none
  | .endLine _ c | .destroy _ c =>
      ∀ x, (l.capturer c).pctx = some x → ∀ w, l.writer = some w → w.destructor = .idle
  | .writer who => ∀ w, l.writer = some w → w.DestroyedLast who.action
  | _ => True

def current (l : Logger) : List Printing :=
  (l.printing .worker).toList ++ (l.printing .destructor).toList

def appended (l : Logger) : List CtxId := l.writer.elim [] AsyncLogWriter.appended

/-- The records that were passed to the channels, or are about to be. -/
def delivered (l : Logger) : List CtxId := l.writer.elim [] AsyncLogWriter.delivered

/-- The records that no capturer may change any more. -/
def settled (l : Logger) : List CtxId := l.appended ++ (l.cleared ++ l.unwritten)

end Logger

end CommonLibrary.Utils

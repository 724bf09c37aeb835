import KonaSoon.Da.Channel
import KonaSoon.Derive.Pipeline

namespace KonaSoon.Derive
open Lib Mpt Da

class NextFrameProvider (P : Type) extends Stage P where
  nextFrame : P → P × PipelineResult Frame

def fjordMaxChannelBankSize : Nat := 1000000000

structure ChannelBank (P : Type) where
  channelTimeout : UInt64
  channels : HashMap ChannelId Channel
  channelQueue : List ChannelId
  prev : P

namespace ChannelBank

variable {P : Type} [NextFrameProvider P]

def new (channelTimeout : UInt64) (prev : P) : ChannelBank P := ⟨channelTimeout, ∅, [], prev⟩

def origin (bank : ChannelBank P) : Option BlockInfo := Stage.origin bank.prev

def size (bank : ChannelBank P) : Nat := bank.channels.total Channel.size

def timedOut (bank : ChannelBank P) (channel : Channel) (origin : BlockInfo) : Bool :=
  channel.openBlock.number + bank.channelTimeout < origin.number

/-- The loop of `prune`, on the queue it pops. -/
def pruneFrom (channels : HashMap ChannelId Channel) (totalSize : Nat) :
    List ChannelId → HashMap ChannelId Channel × List ChannelId × PipelineResult Unit
  | [] => (channels, [], if totalSize > fjordMaxChannelBankSize then PipelineError.channelProviderEmpty.crit else .ok ())
  | id :: queue =>
      if totalSize > fjordMaxChannelBankSize then
        match channels.lookup id with
        | none => (channels, queue, PipelineError.channelNotFound.crit)
        | some channel =>
            if channel.size ≤ totalSize then pruneFrom (channels.erase id) (totalSize - channel.size) queue
            else (channels.erase id, queue, .error .panic)
      else (channels, id :: queue, .ok ())

def prune (bank : ChannelBank P) : ChannelBank P × PipelineResult Unit :=
  let (channels, channelQueue, result) := pruneFrom bank.channels bank.size bank.channelQueue
  ({ bank with channels, channelQueue }, result)

def openChannel (bank : ChannelBank P) (id : ChannelId) (origin : BlockInfo) : ChannelBank P × Channel :=
  match bank.channels.lookup id with
  | some channel => (bank, channel)
  | none =>
      let channel := Channel.new id origin
      ({ bank with channels := bank.channels.insert id channel, channelQueue := bank.channelQueue ++ [id] }, channel)

def ingestFrame (bank : ChannelBank P) (frame : Frame) : ChannelBank P × PipelineResult Unit :=
  match bank.origin with
  | none => (bank, PipelineError.missingOrigin.crit)
  | some origin =>
      let (bank, currentChannel) := bank.openChannel frame.id origin
      if bank.timedOut currentChannel origin then (bank, .ok ())
      else
        let (channel, added) := currentChannel.addFrame frame origin
        let bank := { bank with channels := bank.channels.insert frame.id channel }
        match added with
        | .error (.error _) => (bank, .ok ())
        | .error .panic => (bank, .error .panic)
        | .error .outOfFuel => (bank, .error .outOfFuel)
        | .ok () => bank.prune

def tryReadChannelAtIndex (bank : ChannelBank P) (index : Nat) : ChannelBank P × PipelineResult (List UInt8) :=
  match bank.channelQueue[index]? with
  | none => (bank, .error .panic)
  | some channelId =>
      match bank.channels.lookup channelId with
      | none => (bank, PipelineError.channelProviderEmpty.crit)
      | some channel =>
          match bank.origin with
          | none => (bank, PipelineError.missingOrigin.crit)
          | some origin =>
              if bank.timedOut channel origin || !channel.isReady then (bank, PipelineError.eof.temp)
              else
                let bank := { bank with
                  channels := bank.channels.erase channelId, channelQueue := bank.channelQueue.eraseIdx index }
                match channel.frameData with
                | none => (bank, PipelineError.channelProviderEmpty.crit)
                | some frameData => (bank, .ok frameData)

/-- The first index that can be read; a panic ends the search. -/
def findReady (bank : ChannelBank P) : List Nat → ChannelBank P × PipelineResult (List UInt8)
  | [] => (bank, PipelineError.eof.temp)
  | index :: indices =>
      match bank.tryReadChannelAtIndex index with
      | (bank, .ok data) => (bank, .ok data)
      | (bank, .error (.error _)) => findReady bank indices
      | (bank, .error stop) => (bank, .error stop)

def read (bank : ChannelBank P) : ChannelBank P × PipelineResult (Option (List UInt8)) :=
  match bank.channelQueue with
  | [] => (bank, PipelineError.eof.temp)
  | first :: queue =>
      match bank.channels.lookup first with
      | none => (bank, PipelineError.channelProviderEmpty.crit)
      | some channel =>
          match bank.origin with
          | none => (bank, PipelineError.channelProviderEmpty.crit)
          | some origin =>
              if bank.timedOut channel origin then
                ({ bank with channels := bank.channels.erase first, channelQueue := queue }, .ok none)
              else
                let (bank, data) := bank.findReady (List.range bank.channelQueue.length)
                (bank, data.map some)

def nextData (bank : ChannelBank P) : ChannelBank P × PipelineResult (Option (List UInt8)) :=
  match bank.read with
  | (bank, .error (.error (.temporary .eof))) =>
      match NextFrameProvider.nextFrame bank.prev with
      | (prev, .error e) => ({ bank with prev }, .error e)
      | (prev, .ok frame) =>
          let (bank, ingested) := { bank with prev }.ingestFrame frame
          (bank, ingested.bind fun () => PipelineError.notEnoughData.temp)
  | (bank, .error (.error _)) => (bank, PipelineError.channelProviderEmpty.crit)
  | (bank, data) => (bank, data)

def advanceOrigin (bank : ChannelBank P) : ChannelBank P × PipelineResult Unit :=
  let (prev, result) := Stage.advanceOrigin bank.prev
  ({ bank with prev }, result)

def signal (bank : ChannelBank P) (s : Signal) : ChannelBank P × PipelineResult Unit :=
  match Stage.signal bank.prev s with
  | (prev, .error e) => ({ bank with prev }, .error e)
  | (prev, .ok ()) => ({ bank with channels := ∅, channelQueue := [], prev }, .ok ())

end ChannelBank

end KonaSoon.Derive

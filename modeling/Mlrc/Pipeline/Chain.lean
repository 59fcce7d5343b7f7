import Mlrc.Pipeline.Plan

/-!
# Pipeline chains

The requests the coordinator sends for a chain and the processes that serve them: the chain head
reads the first block, every hop server adds its own block to what it receives, and the last process
sends into the fan-in, which is the hub's listener of the chain or the sink of a local-direct chain.

* `fillPipelineChainFields`, `launchChainHopsAndHead`   the requests of a chain;
* `headNext`, `hopNext`   where a process sends, an index of the hop list or the fan-in;
* `chainHead`, `hopServer`  the frames a process sends, from the frames it receives;
* `chainOutput`   the hops a stream passes and the frames that reach the fan-in.

Streams are modelled on runs whose connections and datanode calls work; an index outside a repeated
field is the error `badIndex`.  Shards are handled one after the other, as with a window of 1.
-/

namespace Mlrc

structure Config where
  k : ℕ
  r : ℕ
  z : ℕ
  blockSize : ℕ
  glrcShardCount : ℕ
  /-- `DDRT_ONE_PROXY_PER_HOST` is set -/
  oneProxyPerHost : Bool := false

inductive GlrcPipelineRole where
  | HUB
  | CHAIN_HEAD
  | HOP_SERVER
  | LOCAL_DIRECT
  | TEARDOWN
  | READY
deriving DecidableEq, Repr

inductive PipelineError where
  | message (text : String)
  | badIndex
deriving DecidableEq, Repr

/-! ## Codec -/

inductive GlrcPipelineEqCodec where
  | LOCAL_LINEAR
  | GLOBAL_CAUCHY
deriving DecidableEq, Repr

def glrcPipelineAccumulateByte (dst src coef : UInt8) (codec : GlrcPipelineEqCodec) : UInt8 :=
  if coef = 0 then dst
  else if codec = .LOCAL_LINEAR then
    if coef ≠ 1 then dst ^^^ gfMul coef src else dst ^^^ src
  else dst ^^^ gfMul coef src

def glrcPipelineAccumulateRange (dst src : List UInt8) (coef : UInt8) (codec : GlrcPipelineEqCodec) :
    List UInt8 :=
  if coef = 0 then dst
  else if codec = .LOCAL_LINEAR ∧ coef = 1 then List.zipWith (· ^^^ ·) dst src
  else List.zipWith (fun d s => glrcPipelineAccumulateByte d s coef codec) dst src

def glrcPipelineInitPartialRange (src : List UInt8) (coef : UInt8) (codec : GlrcPipelineEqCodec) :
    List UInt8 :=
  if codec = .LOCAL_LINEAR then
    if coef ≠ 1 then src.map (gfMul coef) else src
  else src.map (gfMul coef)

/-! ## Requests -/

structure GlrcPipelineChainPorts where
  hopListenPorts : List ℕ
  hubListenPort : ℕ
deriving DecidableEq, Repr

/-- the part `[globalBegin, globalBegin + localCount)` of the `globalCount` shards that a session
repairs, and how it writes back -/
structure PipelineSession where
  localShardCount : ℕ
  globalShardBegin : ℕ
  globalShardCount : ℕ
  hybridCommitToken : String := ""
  rangeCommitParts : ℕ := 0
deriving DecidableEq, Repr

/-- the fields of a recovery request that the processes of a chain read; `hops` stands for the
parallel fields `pipeline_hop_*` -/
structure ChainRequest where
  role : GlrcPipelineRole
  chainId : ℕ
  equationIndex : ℕ
  eqSlot : ℕ
  exchangeEpoch : ℕ
  shardCount : ℕ
  shardGlobalBegin : ℕ
  globalShardCount : ℕ
  hubBlockId : ℕ
  hubProxyIp : String
  hubProxyPort : ℕ
  chainHubIsTailFlag : Bool
  equationIsLocal : Bool
  myHopIndex : ℕ
  hops : List GlrcPipelineHopInfo
  hopListenPorts : List ℕ
  chainHubListenPort : ℕ
  myListenPort : ℕ
  localFailedBlockId : Option ℕ
  localFailedBlockKey : String
  localReplacedNodeIp : String
  localReplacedNodePort : ℕ
  hybridCommitToken : String
  rangeCommitParts : ℕ
deriving DecidableEq, Repr

/-- `fill_pipeline_chain_fields` on the base request -/
def fillPipelineChainFields (session : PipelineSession) (z : ℕ) (plan : GlrcPipelinePlan)
    (chain : GlrcPipelineChainPlan) (ports : GlrcPipelineChainPorts) (role : GlrcPipelineRole)
    (myHopIndex : ℕ) : ChainRequest where
  role
  chainId := chain.chainId
  equationIndex := chain.equationIndex
  eqSlot := chain.eqSlot
  exchangeEpoch := plan.exchangeEpoch
  shardCount := session.localShardCount
  shardGlobalBegin := session.globalShardBegin
  globalShardCount := session.globalShardCount
  hubBlockId := plan.hubBlockId
  hubProxyIp := if chain.localDirect ∧ chain.localDirectSinkProxyIp ≠ "" then
    chain.localDirectSinkProxyIp else plan.hubProxyIp
  hubProxyPort := if chain.localDirect ∧ chain.localDirectSinkProxyIp ≠ "" then
    chain.localDirectSinkProxyPort else plan.hubProxyPort
  chainHubIsTailFlag := chain.hubIsChainTail
  equationIsLocal := decide (chain.equationIndex < z)
  myHopIndex
  hops := chain.hops
  hopListenPorts := ports.hopListenPorts
  chainHubListenPort := ports.hubListenPort
  myListenPort := if role = .READY ∨ role = .HOP_SERVER then ports.hopListenPorts.getD myHopIndex 0
    else 0
  localFailedBlockId := if chain.localDirect then chain.localDirectFailedBlockId else none
  localFailedBlockKey := if chain.localDirect then chain.localDirectFailedBlockKey else ""
  localReplacedNodeIp := if chain.localDirect then chain.localDirectReplacedIp else ""
  localReplacedNodePort := if chain.localDirect then chain.localDirectReplacedPort else 0
  hybridCommitToken := session.hybridCommitToken
  rangeCommitParts := session.rangeCommitParts

/-- the number of hop servers: none at hop 0, and none at a hub that ends the chain -/
def lastHopServer (chain : GlrcPipelineChainPlan) : ℕ :=
  if chain.hubIsChainTail then chain.hops.length - 2 else chain.hops.length - 1

/-- `launch_chain_hops_and_head`: the hop servers from the last one to the first, then the head -/
def launchChainHopsAndHead (session : PipelineSession) (z : ℕ) (plan : GlrcPipelinePlan)
    (chain : GlrcPipelineChainPlan) (ports : GlrcPipelineChainPorts) : List ChainRequest :=
  (List.range' 1 (lastHopServer chain)).reverse.map
      (fillPipelineChainFields session z plan chain ports .HOP_SERVER) ++
    if chain.hops = [] then []
    else [fillPipelineChainFields session z plan chain ports .CHAIN_HEAD 0]

/-! ## Listening ports -/

def proxyGrpcBase : ℕ := 50405
def proxyGrpcStride : ℕ := 2
def proxyGrpcMaxIndex : ℕ := 79
def proxyPipelineExchangeBase : ℕ := 20000
def proxyPipelinePerProxyBand : ℕ := 150

def pipelineProxyIndex (cfg : Config) (proxyGrpcPort : ℕ) : ℕ :=
  if cfg.oneProxyPerHost then 0
  else min ((proxyGrpcPort - proxyGrpcBase) / proxyGrpcStride) proxyGrpcMaxIndex

def pipelineComposeListenPort (cfg : Config) (proxyGrpcPort slotCore : ℕ) (hubBand : Bool) : ℕ :=
  let half := proxyPipelinePerProxyBand / 2
  let base := proxyPipelineExchangeBase +
    pipelineProxyIndex cfg proxyGrpcPort * proxyPipelinePerProxyBand
  let port := base + if hubBand then half + slotCore % half else slotCore % half
  if port = 55555 then base + if hubBand then half + (slotCore + 1) % half else (slotCore + 1) % half
  else port

def pipelineHopListenPort (cfg : Config) (proxyGrpcPort epoch chainId hopIndex : ℕ) : ℕ :=
  pipelineComposeListenPort cfg proxyGrpcPort ((epoch * 17 + chainId * 32 + hopIndex) %
    (proxyPipelinePerProxyBand / 2)) false

def pipelineHubListenPort (cfg : Config) (hubProxyGrpcPort epoch eqSlot : ℕ) : ℕ :=
  pipelineComposeListenPort cfg hubProxyGrpcPort ((epoch * 17 + eqSlot * 32 + 1) %
    (proxyPipelinePerProxyBand / 2)) true

def resolveHopListenPort (cfg : Config) (req : ChainRequest) (hopIndex fallbackGrpcPort : ℕ) : ℕ :=
  if 0 < req.hopListenPorts.getD hopIndex 0 then req.hopListenPorts.getD hopIndex 0
  else pipelineHopListenPort cfg fallbackGrpcPort req.exchangeEpoch req.chainId hopIndex

def resolveChainHubListenPort (cfg : Config) (req : ChainRequest) (hubGrpcPort : ℕ) : ℕ :=
  if 0 < req.chainHubListenPort then req.chainHubListenPort
  else pipelineHubListenPort cfg hubGrpcPort req.exchangeEpoch req.eqSlot

def resolveMyHopBindPort (cfg : Config) (req : ChainRequest) (proxyGrpcPort hopIndex : ℕ) : ℕ :=
  if 0 < req.myListenPort then req.myListenPort
  else if 0 < req.hopListenPorts.getD hopIndex 0 then req.hopListenPorts.getD hopIndex 0
  else pipelineHopListenPort cfg proxyGrpcPort req.exchangeEpoch req.chainId hopIndex

/-! ## Routing -/

inductive NextHop where
  | fanin
  | hop (i : ℕ)
deriving DecidableEq, Repr

structure Endpoint where
  ip : String
  port : ℕ
deriving DecidableEq, Repr

def pipelineChainIsLocalDirect (req : ChainRequest) : Bool := req.localFailedBlockKey != ""

/-- where the chain head connects; without a fan-in it reads the hop with index 1 -/
def headNext (req : ChainRequest) : Except PipelineError NextHop :=
  let hopsN := req.hops.length
  let nextIsHub := req.chainHubIsTailFlag && decide (hopsN ≤ 2)
  let nextIsLocalSink := !req.chainHubIsTailFlag && hopsN == 1 && pipelineChainIsLocalDirect req
  if nextIsHub || nextIsLocalSink then .ok .fanin
  else if 1 < hopsN then .ok (.hop 1)
  else .error .badIndex

def pipelineHopConnectsToHub (req : ChainRequest) (myIdx hopsN : ℕ) : Bool :=
  if pipelineChainIsLocalDirect req then myIdx + 1 == hopsN
  else if req.chainHubIsTailFlag then myIdx + 2 == hopsN
  else myIdx + 1 == hopsN

def hopNext (req : ChainRequest) : Except PipelineError NextHop :=
  let hopsN := req.hops.length
  if pipelineHopConnectsToHub req req.myHopIndex hopsN then .ok .fanin
  else if req.myHopIndex + 1 < hopsN then .ok (.hop (req.myHopIndex + 1))
  else .error .badIndex

def connectEndpoint (cfg : Config) (req : ChainRequest) : NextHop → Option Endpoint
  | .fanin => some ⟨req.hubProxyIp, resolveChainHubListenPort cfg req req.hubProxyPort⟩
  | .hop i => req.hops[i]?.map fun hop => ⟨hop.proxyIp, resolveHopListenPort cfg req i hop.proxyPort⟩

/-- the address at which the proxy of hop `myHopIndex` serves the request -/
def listenEndpoint (cfg : Config) (req : ChainRequest) : Option Endpoint :=
  req.hops[req.myHopIndex]?.map fun hop =>
    ⟨hop.proxyIp, resolveMyHopBindPort cfg req hop.proxyPort req.myHopIndex⟩

/-! ## Shards and frames -/

structure PipelineShardView where
  globalBegin : ℕ
  localCount : ℕ
  globalS : ℕ
  stripeLen : ℕ
deriving DecidableEq, Repr

namespace PipelineShardView

def globalShard (v : PipelineShardView) (localI : ℕ) : ℕ := v.globalBegin + localI
def byteOff (v : PipelineShardView) (localI : ℕ) : ℕ := v.globalShard localI * v.stripeLen

def validGeometry (v : PipelineShardView) (blockSize : ℕ) : Bool :=
  decide (0 < v.localCount ∧ 0 < v.globalS ∧ 0 < v.stripeLen ∧
    v.globalBegin + v.localCount ≤ v.globalS ∧ v.globalS * v.stripeLen = blockSize)

end PipelineShardView

/-- `resolve_pipeline_shard_view` from the three shard fields of a request -/
def resolvePipelineShardView (cfg : Config) (shardCount shardGlobalBegin globalShardCount : ℕ) :
    PipelineShardView :=
  let globalS := if 0 < globalShardCount then globalShardCount
    else if 0 < shardCount then shardCount else cfg.glrcShardCount
  let localCount := if 0 < shardCount then shardCount else globalS
  { globalBegin := shardGlobalBegin
    localCount := if globalS < shardGlobalBegin + localCount then globalS - shardGlobalBegin
      else localCount
    globalS
    stripeLen := if 0 < globalS ∧ cfg.blockSize % globalS = 0 then cfg.blockSize / globalS else 0 }

def ChainRequest.view (cfg : Config) (req : ChainRequest) : PipelineShardView :=
  resolvePipelineShardView cfg req.shardCount req.shardGlobalBegin req.globalShardCount

inductive PipelineFrame where
  | SHARD (eqSlot shardId : ℕ) (payload : List UInt8)
  | END (eqSlot shardCount : ℕ)
deriving DecidableEq, Repr

/-- the block a datanode holds, by key, address and port -/
abbrev Datanodes := String → String → ℕ → Option (List UInt8)

/-- the bytes a datanode streams for the range `[off, off + len)` of a block -/
def openDatanodeReadStream (disk : Datanodes) (hop : GlrcPipelineHopInfo) (off len : ℕ) :
    Option (List UInt8) :=
  (disk hop.blockKey hop.datanodeIp hop.datanodePort).map fun block => (block.drop off).take len

/-- the `i`-th read of `len` bytes from a stream -/
def readDatanodeStreamShard (stream : List UInt8) (i len : ℕ) : Option (List UInt8) :=
  let bytes := (stream.drop (i * len)).take len
  if bytes.length = len then some bytes else none

/-! ## Processes -/

def pipelineCodecFromRequest (req : ChainRequest) : GlrcPipelineEqCodec :=
  if req.equationIsLocal then .LOCAL_LINEAR else .GLOBAL_CAUCHY

/-- shard `i` of the chain head -/
def runChainHeadShard (req : ChainRequest) (head : GlrcPipelineHopInfo) (stream : List UInt8)
    (stripeLen shard : ℕ) : Except PipelineError PipelineFrame :=
  match readDatanodeStreamShard stream shard stripeLen with
  | none => .error (.message ("pipeline chain head local read failed key=" ++ head.blockKey ++ " @" ++
      head.datanodeIp ++ ":" ++ toString head.datanodePort ++ " shard=" ++ toString shard))
  | some raw => .ok (.SHARD req.eqSlot shard
      (glrcPipelineInitPartialRange raw head.coef (pipelineCodecFromRequest req)))

/-- `glrcIlpPipelineChainHeadRecovery`: the next hop and the frames sent there -/
def chainHead (cfg : Config) (disk : Datanodes) (req : ChainRequest) :
    Except PipelineError (NextHop × List PipelineFrame) :=
  match req.hops with
  | [] => .error (.message "pipeline chain head missing hops")
  | head :: _ =>
    let shards := req.view cfg
    if shards.validGeometry cfg.blockSize then do
      let next ← headNext req
      match openDatanodeReadStream disk head (shards.byteOff 0) (shards.localCount * shards.stripeLen)
        with
      | none => .error (.message ("pipeline chain head stream setup failed key=" ++ head.blockKey))
      | some stream =>
        let frames ← (List.range shards.localCount).mapM
          (runChainHeadShard req head stream shards.stripeLen)
        return (next, frames ++ [.END req.eqSlot shards.localCount])
    else .error (.message "invalid pipeline shard geometry")

/-- the receive loop of a hop server; `forwarded` counts the shards sent on, and the local stream is
read in the order of arrival -/
def hopLoop (req : ChainRequest) (me : GlrcPipelineHopInfo) (stream : List UInt8)
    (shardCount stripeLen : ℕ) : ℕ → List PipelineFrame → Except PipelineError (List PipelineFrame)
  | _, [] => .error (.message "pipeline hop recv frame failed: ")
  | forwarded, .END _ count :: _ =>
    if count = forwarded then .ok [.END req.eqSlot shardCount]
    else .error (.message "pipeline hop stream shard count mismatch")
  | forwarded, .SHARD _ shard payload :: rest =>
    if shard < shardCount ∧ payload.length = stripeLen then
      match readDatanodeStreamShard stream forwarded stripeLen with
      | none => .error (.message ("pipeline hop local read failed hop=" ++ toString req.myHopIndex ++
          " shard=" ++ toString shard ++ " dn=" ++ me.datanodeIp ++ ":" ++ toString me.datanodePort ++
          " key=" ++ me.blockKey))
      | some bytes => do
        let out ← hopLoop req me stream shardCount stripeLen (forwarded + 1) rest
        return .SHARD req.eqSlot shard (glrcPipelineAccumulateRange payload bytes me.coef
          (pipelineCodecFromRequest req)) :: out
    else .error (.message "pipeline hop shard mismatch")

/-- `glrcIlpPipelineHopServerRecovery`: the next hop and the frames sent there -/
def hopServer (cfg : Config) (disk : Datanodes) (req : ChainRequest) (inbound : List PipelineFrame) :
    Except PipelineError (NextHop × List PipelineFrame) :=
  let hopsN := req.hops.length
  if hopsN ≤ 1 ∨ req.myHopIndex = 0 then .error (.message "invalid pipeline hop_server index")
  else
    match req.hops[req.myHopIndex]? with
    | none => .error (.message "invalid pipeline hop_server index")
    | some me =>
      let shards := req.view cfg
      if shards.validGeometry cfg.blockSize then do
        let next ← hopNext req
        match openDatanodeReadStream disk me (shards.byteOff 0) (shards.localCount * shards.stripeLen)
          with
        | none => .error (.message ("pipeline hop local stream setup failed hop=" ++
            toString req.myHopIndex))
        | some stream =>
          let frames ← hopLoop req me stream shards.localCount shards.stripeLen 0 inbound
          return (next, frames)
      else .error (.message "invalid pipeline hop_server geometry")

/-! ## A whole chain -/

/-- the launched hop server with index `i` -/
def hopRequest (launched : List ChainRequest) (i : ℕ) : Option ChainRequest :=
  launched.find? fun req => req.role = .HOP_SERVER ∧ req.myHopIndex = i

/-- follow a stream from the process that sends `frames` to `next`: the hops it has passed, and the
frames that reach the fan-in; a connection to a hop nobody serves fails -/
def follow (cfg : Config) (disk : Datanodes) (launched : List ChainRequest) :
    ℕ → List ℕ → NextHop → List PipelineFrame → Except PipelineError (List ℕ × List PipelineFrame)
  | _, path, .fanin, frames => .ok (path, frames)
  | 0, _, .hop _, _ => .error (.message "connect failed")
  | fuel + 1, path, .hop i, frames =>
    match hopRequest launched i with
    | none => .error (.message "connect failed")
    | some req => do
      let out ← hopServer cfg disk req frames
      follow cfg disk launched fuel (path ++ [i]) out.1 out.2

/-- what the launched processes of a chain deliver to its fan-in -/
def chainOutput (cfg : Config) (disk : Datanodes) (launched : List ChainRequest) :
    Except PipelineError (List ℕ × List PipelineFrame) :=
  match launched.find? fun req => req.role = .CHAIN_HEAD with
  | none => .error (.message "accept failed")
  | some req => do
    let out ← chainHead cfg disk req
    follow cfg disk launched launched.length [0] out.1 out.2

end Mlrc

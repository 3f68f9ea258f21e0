import Starkstream.Starknet.Conversion

/-! # Requests to the node

Blocks are asked for by an identifier of the repository, which is translated to the
identifiers of the RPC client.  The client has two kinds of them: requests for traces
take a confirmed block only.  What the client answers, after its retries and unless the
request times out, is a parameter.
-/

namespace Starkstream

inductive BlockId where
  | head
  | pending
  | number (number : Nat)
  | hash (hash : Felt)
  | finalized

/-- The identifiers of the RPC client. -/
inductive RpcBlockId where
  | latest
  | preConfirmed
  | l1Accepted
  | number (number : Nat)
  | hash (hash : Felt)

inductive ConfirmedBlockId where
  | latest
  | l1Accepted
  | number (number : Nat)
  | hash (hash : Felt)

def BlockId.toRpc : BlockId → RpcBlockId
  | .head => .latest
  | .pending => .preConfirmed
  | .number blockNumber => .number blockNumber
  | .hash blockHash => .hash blockHash
  | .finalized => .l1Accepted

def BlockId.toConfirmed : BlockId → Except (Report StarknetProviderError) ConfirmedBlockId
  | .head => .ok .latest
  | .pending => .error ⟨.request, ["expected a confirmed block id, got pending"]⟩
  | .number blockNumber => .ok (.number blockNumber)
  | .hash blockHash => .ok (.hash blockHash)
  | .finalized => .ok .l1Accepted

/-- The errors of the RPC client that are told apart. -/
inductive ProviderError where
  | blockNotFound
  | other

/-- How a request ends, after its retries. -/
inductive Response (α : Type) where
  | timeout
  | failed (error : ProviderError)
  | answered (value : α)

def convertError : ProviderError → StarknetProviderError
  | .blockNotFound => .notFound
  | .other => .request

def Report.isNotFound (report : Report StarknetProviderError) : Bool :=
  report.context == .notFound

/-- The end of every request: the attachments name what was asked for. -/
def Response.report {α : Type} (what blockId : String) : Response α → Except (Report StarknetProviderError) α
  | .timeout => .error ⟨.timeout, [what, "block id: " ++ blockId]⟩
  | .failed error => .error ⟨convertError error, [what, "block id: " ++ blockId]⟩
  | .answered value => .ok value

namespace Starknet.Rpc

variable (Content : Type)

inductive MaybePreConfirmedBlockWithReceipts where
  | block (block : BlockWithReceipts) (transactions : List (Model.TransactionWithReceipt Content))
  | preConfirmedBlock (block : PreConfirmedBlockWithReceipts)
      (transactions : List (Model.TransactionWithReceipt Content))

inductive MaybePreConfirmedStateUpdate where
  | update (stateDiff : Model.StateDiff)
  | preConfirmedUpdate (stateDiff : Model.StateDiff)

inductive TraceBlockTransactionsResult where
  | traces (traces : List (Model.TransactionTraceWithHash Content))
  | tracesWithInitialReads (traces : List (Model.TransactionTraceWithHash Content))

end Starknet.Rpc

open Starknet

/-- The RPC client, and how an identifier is printed. -/
structure JsonRpcClient (Content : Type) where
  getBlockWithReceipts : RpcBlockId → Response (Rpc.MaybePreConfirmedBlockWithReceipts Content)
  getStateUpdate : RpcBlockId → Response Rpc.MaybePreConfirmedStateUpdate
  traceBlockTransactions : ConfirmedBlockId → Response (Rpc.TraceBlockTransactionsResult Content)
  debug : BlockId → String

namespace StarknetProvider

variable {Content : Type} (client : JsonRpcClient Content)

def getBlockWithReceipts (blockId : BlockId) :
    Except (Report StarknetProviderError) (Rpc.MaybePreConfirmedBlockWithReceipts Content) :=
  (client.getBlockWithReceipts blockId.toRpc).report "failed to get block with receipts" (client.debug blockId)

def getStateUpdate (blockId : BlockId) : Except (Report StarknetProviderError) Rpc.MaybePreConfirmedStateUpdate :=
  (client.getStateUpdate blockId.toRpc).report "failed to get block state update" (client.debug blockId)

def getBlockTransactionTraces (blockId : BlockId) :
    Except (Report StarknetProviderError) (List (Model.TransactionTraceWithHash Content)) := do
  let confirmed ← blockId.toConfirmed
  match ← (client.traceBlockTransactions confirmed).report "failed to get block traces" (client.debug blockId) with
  | .traces traces => return traces
  | .tracesWithInitialReads traces => return traces

end StarknetProvider

end Starkstream

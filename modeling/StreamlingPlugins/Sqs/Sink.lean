import StreamlingPlugins.Text

/-!
# The SQS sink

`sendMessages` sends message bodies in `SendMessageBatch` requests: chunks cut
by count and by bytes, each retried with the entries SQS reports as failed.  SQS
is a parameter, and every request with its reply goes to a log.  Waiting between
the attempts and the tracing output are left out.
-/

namespace StreamlingPlugins.Sqs

def sqsMaxBatchSize : Nat := 10

def sqsPartialFailureMaxRetries : Nat := 5

/-! ## Requests -/

/-- A `SendMessageBatchRequestEntry`. -/
structure Entry where
  id : String
  messageBody : String
  deriving DecidableEq

/-- A `BatchResultErrorEntry`. -/
structure Failed where
  id : String
  senderFault : Bool
  message : Option String
  deriving DecidableEq

/-- The answer to a request: an error, or the entries that failed. -/
abbrev Reply := Except String (List Failed)

/-- A body with its position among the bodies to send. -/
abbrev Message := Nat × String

def entryId (i : Nat) : String :=
  "msg_" ++ i.repr

def entries (messages : List Message) : List Entry :=
  messages.zipIdx.map fun (message, i) => ⟨entryId i, message.2⟩

/-- A request that was issued, with its reply. -/
structure Request where
  entries : List Entry
  reply : Reply

/-- The bodies SQS took: those of the entries it does not report as failed, and none
of them when the request errors as a whole. -/
def Request.accepted (request : Request) : List String :=
  match request.reply with
  | .error _ => []
  | .ok failed =>
    (request.entries.filter fun entry => entry.id ∉ failed.map Failed.id).map Entry.messageBody

/-- SQS answers a request's entries, knowing the requests before it. -/
abbrev Service := List Request → List Entry → Reply

/-- Failed ids are ids of the request, none of them twice. -/
def Service.Conforms (service : Service) : Prop :=
  ∀ log sent failed, service log sent = .ok failed →
    (failed.map Failed.id).Nodup ∧ ∀ f ∈ failed, f.id ∈ sent.map Entry.id

/-- `send_message_batch` with these entries. -/
def sendMessageBatch (service : Service) (log : List Request) (sent : List Entry) : Request :=
  ⟨sent, service log sent⟩

/-- The requests issued after `log` carry the replies of `service`. -/
def Service.Answers (service : Service) : List Request → List Request → Prop
  | _, [] => True
  | log, request :: issued =>
    request.reply = service log request.entries ∧ service.Answers (log ++ [request]) issued

/-! ## The sink -/

/-- `str::len`. -/
def len (body : String) : Nat :=
  body.utf8ByteSize

/-- `{:?}` of a list of strings. -/
def debugList (texts : List String) : String :=
  "[" ++ ", ".intercalate (texts.map String.quote) ++ "]"

/-- The message a failed entry's id stands for. -/
def position (sent : List Message) (f : Failed) : Option Nat :=
  ((stripStart "msg_" f.id).bind parseUsize).filter (· < sent.length)

def failedToRetry (sent : List Message) (failed : List Failed) : List Message :=
  failed.filterMap fun f => (position sent f).bind (sent[·]?)

def unrecognizedIds (sent : List Message) (failed : List Failed) : List String :=
  (failed.filter fun f => (position sent f).isNone).map fun f =>
    if f.id = "" then "(empty)" else f.id

/-- One attempt after the other, until no entry fails. -/
def sendAttempts (service : Service) (chunkLen : Nat) :
    List Nat → List Request → List Message →
      Except String (Nat × List Message) × List Request
  | [], log, _ => (.ok (0, []), log)
  | attempt :: attempts, log, toRetry =>
    let request := sendMessageBatch service log (entries toRetry)
    let log := log ++ [request]
    match request.reply with
    | .error e => (.error ("failed to send message batch to SQS: " ++ e), log)
    | .ok failed =>
      if failed = [] then (.ok (chunkLen, []), log)
      else if failed.any Failed.senderFault then
        (.error ("SQS batch send failed (sender fault) for " ++ toString failed.length ++
          " messages: " ++ debugList (failed.map fun f => f.message.getD "unknown error")), log)
      else if unrecognizedIds toRetry failed ≠ [] then
        (.error ("SQS batch send: could not map failed entry IDs back to messages " ++
          "(unrecognized IDs: " ++ debugList (unrecognizedIds toRetry failed) ++
          "). Possible data loss."), log)
      else if attempt = sqsPartialFailureMaxRetries then
        (.error ("SQS batch send failed for " ++
          toString (failedToRetry toRetry failed).length ++ " messages after " ++
          toString sqsPartialFailureMaxRetries ++ " retries"), log)
      else sendAttempts service chunkLen attempts log (failedToRetry toRetry failed)

def sendChunkWithRetry (service : Service) (log : List Request) (chunk : List Message) :
    Except String (Nat × List Message) × List Request :=
  sendAttempts service chunk.length (List.range (sqsPartialFailureMaxRetries + 1)) log chunk

def ensureBodiesFit (bodies : List String) (maxBytes : Nat) : Except String Unit :=
  match bodies.find? fun body => maxBytes < len body with
  | none => .ok ()
  | some body => .error ("sqs_sink: a single message is " ++ toString (len body) ++
      " bytes, which exceeds the " ++ toString maxBytes ++
      " byte SQS message limit; shrink the rows or lower the sink's batch_size")

/-- How many leading bodies fit, after `count` bodies of `total` bytes. -/
def countFitting (maxBytes : Nat) : Nat → Nat → List Message → Nat
  | _, count, [] => count
  | total, count, (_, body) :: rest =>
    if 0 < count ∧ maxBytes < total + len body then count
    else countFitting maxBytes (total + len body) (count + 1) rest

def nextChunkLen (bodies : List Message) (maxCount maxBytes : Nat) : Nat :=
  max (countFitting maxBytes 0 0 (bodies.take maxCount)) 1

/-- The loop over the messages left to send; `none` when `fuel` runs out. -/
def sendLoop (service : Service) (maxBytes : Nat) :
    Nat → List Request → Nat → List Message → Option (Except String Nat × List Request)
  | 0, _, _, _ => none
  | fuel + 1, log, totalSent, toSend =>
    if toSend = [] then some (.ok totalSent, log)
    else
      let chunkLen := nextChunkLen toSend sqsMaxBatchSize maxBytes
      match sendChunkWithRetry service log (toSend.take chunkLen) with
      | (.error e, log) => some (.error e, log)
      | (.ok (sent, failed), log) =>
        sendLoop service maxBytes fuel log (totalSent + sent) (toSend.drop chunkLen ++ failed)

def enumerate (bodies : List String) : List Message :=
  bodies.zipIdx.map Prod.swap

def sendMessages (service : Service) (bodies : List String) (maxBytes fuel : Nat) :
    Option (Except String Nat × List Request) :=
  match ensureBodiesFit bodies maxBytes with
  | .error e => some (.error e, [])
  | .ok () => sendLoop service maxBytes fuel [] 0 (enumerate bodies)

end StreamlingPlugins.Sqs

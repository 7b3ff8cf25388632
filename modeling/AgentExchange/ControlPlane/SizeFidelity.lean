import AgentExchange.ControlPlane.Insertions
import AgentExchange.ControlPlane.Retention

/-!
# The size of a transfer

A size is an unsigned number in the request, in the signed intent and in the responses, and
a signed one in the table. The casts between them lose nothing below `2^63`. From there on
the row holds a negative number, although the responses turn it back.
-/
namespace AgentExchange.ControlPlane

open Library Wire

/-- The length of the uploaded bytes, or the size declared for bytes that stay with the sender. -/
def requestedSize (req : CreateTransferRequest) : Option ℕ :=
  if req.reachableAt = none ∧ req.tunnelUrl = none then
    (hexDecode req.blobHex).toOption.map List.length
  else req.declaredSize.map UInt64.toNat

/-- The sizes a response shows of a transfer. -/
def Response.sizes (transferId : String) : Response → List UInt64
  | .transfer _ body => if body.transferId = transferId then [body.sizeBytes] else []
  | .inbox body => (body.entries.filter (·.transferId = transferId)).map (·.sizeBytes)
  | _ => []

/-- One and the same size in the signed intent, in the row and in every response. `past` is what
the request's task had done when it inserted the row. -/
structure SizeKept (env : Env) (w : World) (past : History) (req : CreateTransferRequest)
    (row : TransferRow) (n : ℕ) : Prop where
  signed : ∃ size : UInt64, size.toNat = n ∧
    Verified env past req.senderAgentId (req.intent size) req.intentSignatureHex
  inserted : row.sizeBytes.toInt = n
  stored : ∀ row' ∈ w.shared.db.transfers, row'.transferId = row.transferId →
    row'.sizeBytes.toInt = n
  shown : ∀ i response, w.outcome i = some (.ok response) →
    ∀ size ∈ response.sizes row.transferId, size.toNat = n

theorem inserts_size {req : CreateTransferRequest} {past : History} {t : InsertTransfer}
    (h : Inserts req past t) :
    ∃ n, requestedSize req = some n ∧ t.sizeBytes = (UInt64.ofNat n).toInt64 := by
  unfold requestedSize
  cases h with
  | @reachable endpoints results declaredSize _ hreq hsize =>
    refine ⟨declaredSize.toNat, ?_, ?_⟩
    · rw [if_neg (by simp [hreq]), hsize, Option.map_some]
    · rw [UInt64.ofNat_toNat]
      rfl
  | @tunnel tunnelUrl declaredSize _ hreq hurl hsize =>
    refine ⟨declaredSize.toNat, ?_, ?_⟩
    · rw [if_neg (by simp [hurl]), hsize, Option.map_some]
    · rw [UInt64.ofNat_toNat]
      rfl
  | @blob blob _ hblob hbytes hsize =>
    refine ⟨blob.length, ?_, hsize⟩
    rw [if_pos (show req.reachableAt = none ∧ req.tunnelUrl = none from hblob), hbytes]
    rfl

/-! ## The casts -/

theorem toNat_toUInt64 {n : ℕ} (h : n < 2 ^ 63) :
    (UInt64.ofNat n).toInt64.toUInt64.toNat = n := by
  rw [UInt64.toUInt64_toInt64]
  exact UInt64.toNat_ofNat_of_lt (h.trans (by decide))

theorem lt_of_toInt {size : Int64} {n : ℕ} (h : size.toInt = n) : n < 2 ^ 63 := by
  have := size.toInt_lt
  omega

/-! ## The rows of one transfer -/

section Run

variable {env : Env} {labels : List Label}

/-- A row that any task has inserted or read. -/
def Seen (trace : Trace) (row : TransferRow) : Prop :=
  ∃ e ∈ trace, Creates row e.event ∨ row ∈ e.before.db.transfers

/-- The columns that are never rewritten stand in the table as they were seen. -/
theorem Seen.stored {row : TransferRow} (h : Seen (run env labels).trace row) :
    ∃ row' ∈ (run env labels).shared.db.transfers, row'.fixed = row.fixed := by
  obtain ⟨e, he, hcreates | hrow⟩ := h
  · exact (run_table env labels).kept e he row hcreates
  · obtain ⟨past, rest, htrace⟩ := List.append_of_mem he
    obtain ⟨done, more, rfl, -, hshared⟩ := Pool.run_entry (semantics env) htrace
    rw [← hshared] at hrow
    obtain ⟨row', hrow', hfixed, -⟩ := run_evolves env done more row hrow
    exact ⟨row', hrow', hfixed⟩

theorem Seen.fixed_eq {row row' : TransferRow} (h : Seen (run env labels).trace row)
    (h' : Seen (run env labels).trace row') (hid : row.transferId = row'.transferId) :
    row.fixed = row'.fixed := by
  obtain ⟨final, hfinal, hfixed⟩ := h.stored
  obtain ⟨final', hfinal', hfixed'⟩ := h'.stored
  have hsame : final.transferId = final'.transferId := by
    rw [TransferRow.transferId_of_fixed hfixed, hid, TransferRow.transferId_of_fixed hfixed']
  obtain rfl := (run_table env labels).unique hfinal hfinal' hsame
  exact hfixed.symm.trans hfixed'

theorem Seen.sizeBytes_eq {row row' : TransferRow} (h : Seen (run env labels).trace row)
    (h' : Seen (run env labels).trace row') (hid : row.transferId = row'.transferId) :
    row.sizeBytes = row'.sizeBytes :=
  (TransferRow.columns_of_fixed (h.fixed_eq h' hid)).2.2.1

theorem mem_listInbox {db : Db} {recipient : String} {limit : ℕ} {row : TransferRow}
    (h : row ∈ db.listInbox recipient limit) : row ∈ db.transfers :=
  (List.mem_filter.mp ((List.mem_insertionSort _).mp (List.mem_of_mem_take h))).1

/-- What a statement answered was in the table. -/
theorem seen_of_answer {i : ℕ} {op : Op} {answer : op.Answer} {row : TransferRow}
    (hsaw : Saw (Pool.eventsOf (run env labels).trace i) op answer)
    (h : ∀ s : State, ∀ c, answer = (exec env s op c).1 → row ∈ s.db.transfers) :
    Seen (run env labels).trace row := by
  obtain ⟨e, he, -, hevent⟩ := Pool.mem_eventsOf.mp hsaw
  obtain ⟨c, hanswer⟩ := (Pool.run_conforms (semantics env) {} labels).answered e he
  rw [hevent] at hanswer
  exact ⟨e, he, Or.inr (h e.before c hanswer)⟩

theorem seen_of_find {i : ℕ} {id : String} {row : TransferRow}
    (h : Saw (Pool.eventsOf (run env labels).trace i) (.findTransfer id) (.ok (some row))) :
    Seen (run env labels).trace row :=
  seen_of_answer h fun _ _ hanswer => List.mem_of_find?_eq_some (State.read_eq_ok hanswer.symm)

theorem seen_of_list {i : ℕ} {recipient : String} {limit : ℕ} {rows : List TransferRow}
    (h : Saw (Pool.eventsOf (run env labels).trace i) (.listInbox recipient limit) (.ok rows)) :
    ∀ row ∈ rows, Seen (run env labels).trace row := by
  intro row hrow
  refine seen_of_answer h fun s c hanswer => ?_
  have hrows : s.db.listInbox recipient limit = rows := State.read_eq_ok hanswer.symm
  exact mem_listInbox (hrows ▸ hrow)

theorem seen_of_insert {i : ℕ} {t : InsertTransfer} {row : TransferRow}
    (h : Saw (Pool.eventsOf (run env labels).trace i) (.insertTransfer t) (.ok row)) :
    Seen (run env labels).trace row := by
  obtain ⟨e, he, -, hevent⟩ := Pool.mem_eventsOf.mp h
  exact ⟨e, he, Or.inl ⟨t, hevent⟩⟩

/-- The sizes in a response are those of rows its task has seen. -/
theorem seen_of_sizes {i : ℕ} {response : Response} {transferId : String} {size : UInt64}
    (hout : (run env labels).outcome i = some (.ok response))
    (hsize : size ∈ response.sizes transferId) : ∃ row, Seen (run env labels).trace row ∧
      row.transferId = transferId ∧ size = row.sizeBytes.toUInt64 := by
  obtain ⟨t, ht⟩ : ∃ t, (run env labels).tasks[i]? = some t := by
    unfold Pool.outcome at hout
    cases htask : (run env labels).tasks[i]? with
    | none => simp [htask] at hout
    | some t => exact ⟨t, rfl⟩
  have hshows := (Pool.run_conforms (semantics env) {} labels).outcome_spec (handler_inserts env)
    ht hout
  cases response with
  | transfer status body =>
    obtain ⟨row, rfl, hsaw⟩ := hshows
    by_cases hid : row.transferId = transferId
    · obtain rfl : size = row.sizeBytes.toUInt64 := by
        simpa [Response.sizes, rowToResponse, hid] using hsize
      rcases hsaw with ⟨t, hsaw⟩ | ⟨id, hsaw⟩
      · exact ⟨row, seen_of_insert hsaw, hid, rfl⟩
      · exact ⟨row, seen_of_find hsaw, hid, rfl⟩
    · simp [Response.sizes, rowToResponse, hid] at hsize
  | inbox body =>
    obtain ⟨recipient, limit, rows, hsaw, hentries⟩ := hshows
    simp only [Response.sizes, hentries, List.mem_map, List.mem_filter] at hsize
    obtain ⟨_, ⟨⟨row, hrow, rfl⟩, hid⟩, rfl⟩ := hsize
    exact ⟨row, seen_of_list hsaw row hrow, of_decide_eq_true hid, rfl⟩
  | _ => cases hsize

/-- In every run, a size is kept if and only if the table can hold it. -/
theorem size_kept_iff {past rest : Trace} {e : Entry effects State Request}
    {req : CreateTransferRequest} {row : TransferRow}
    (he : (run env labels).trace = past ++ e :: rest) (hrow : insertion e = some (req, row)) :
    ∃ n, requestedSize req = some n ∧
      (SizeKept env (run env labels) (Pool.eventsOf past e.task) req row n ↔ n < 2 ^ 63) := by
  obtain ⟨t, rfl, hevent, hinserts⟩ := inserted he hrow
  obtain ⟨n, hn, hsize⟩ := inserts_size hinserts
  refine ⟨n, hn, fun h => lt_of_toInt h.inserted, fun hlt => ?_⟩
  have hcreates : Creates { t with createdAt := e.before.dbNow } e.event := ⟨t, hevent⟩
  have hseen : Seen (run env labels).trace { t with createdAt := e.before.dbNow } :=
    ⟨e, by rw [he]; simp, Or.inl hcreates⟩
  have hstored : t.sizeBytes.toInt = n := by rw [hsize, toInt_size hlt]
  have hshown : t.sizeBytes.toUInt64.toNat = n := by rw [hsize, toNat_toUInt64 hlt]
  refine ⟨⟨t.sizeBytes.toUInt64, hshown, ?_⟩, hstored, fun row' hrow' hid => ?_,
    fun i response hout size hmem => ?_⟩
  · obtain ⟨req', t', hreq', hop, -, hadmitted⟩ := created_admitted he hcreates
    obtain rfl : req = req' := by simpa using (insertion_eq_some hrow).1.symm.trans hreq'
    obtain rfl : t = t' := by simpa [hevent] using hop
    exact hadmitted.verified
  · obtain ⟨final, hfinal, hfixed⟩ := hseen.stored
    obtain rfl := (run_table env labels).unique hrow' hfinal
      (hid.trans (TransferRow.transferId_of_fixed hfixed).symm)
    rw [(TransferRow.columns_of_fixed hfixed).2.2.1]
    exact hstored
  · obtain ⟨row', hseen', hid, rfl⟩ := seen_of_sizes hout hmem
    rw [hseen'.sizeBytes_eq hseen hid]
    exact hshown

end Run

namespace Sample

/-- The largest size a request can declare. -/
def largestSize : UInt64 := 18446744073709551615

/-- The intent of the tunnel, signed for the largest size. -/
def largestRequest : CreateTransferRequest :=
  { tunnelRequest with
    declaredSize := some largestSize
    intentSignatureHex :=
      "ebf6cdd4e81fd5f0a90ec06a6b9c69d28b8bf423697c23519ea6865613770b93" ++
      "e70c90044bc1fdd4e8420340fcd5ffe831c447e84adc8d8137d1c629c06e3801" }

/-- The server that also knows this signature. -/
def largestEnv : Env :=
  { env with
    verify := fun key message signature => env.verify key message signature ||
      (hexEncode key = aliceKeyHex && hexEncode signature = largestRequest.intentSignatureHex &&
        (largestRequest.intent largestSize).encode = .ok message) }

/-- The intent as the agent signed it. -/
def largestSigned : Signed :=
  ⟨aliceKeyHex, .transferIntentBytes alice bob largestSize "" "" largestRequest.nonce
    largestRequest.issuedAt, largestRequest.intentSignatureHex⟩

theorem largestEnv_eq : largestEnv = knowing (signatures ++ [largestSigned]) :=
  eq_knowing_one (by decide +kernel) fun _ _ _ => rfl

/-- Alice registers and announces a tunnel. -/
def announcesTunnel (req : CreateTransferRequest) : List Label :=
  clockAt 1700000000 :: serve 0 (.register registerAlice) 3 ++ serve 1 (.createTransfer req) 9 1

/-- The row that holds it. -/
def largestRow : TransferRow :=
  { declaredInsert largestRequest ⟨alice⟩ largestSize ("tx_" ++ nonce 1) largestRequest.tunnelUrl
      [{ kind := Endpoint.kindCloudflareQuick, url := "https://x.trycloudflare.com" }] with
    createdAt := 1700000000000000 }

end Sample

open Sample in
theorem size_kept_iff_tunnel : ∃ past, past <+: (run env (announcesTunnel tunnelRequest)).trace ∧
    SizeKept env (run env (announcesTunnel tunnelRequest)) (Pool.eventsOf past 1) tunnelRequest
      (tunnelRow 1) 5 := by
  have hmem : (1, tunnelRequest, tunnelRow 1) ∈
      (run env (announcesTunnel tunnelRequest)).trace.filterMap fun e =>
        (insertion e).map fun x => (e.task, x) := by
    rw [env_eq]
    decide +kernel
  obtain ⟨e, he, hrow⟩ := List.mem_filterMap.mp hmem
  obtain ⟨x, hrow, hx⟩ := Option.map_eq_some_iff.mp hrow
  obtain ⟨htask, rfl⟩ := Prod.mk.inj hx
  obtain ⟨past, rest, hsplit⟩ := List.append_of_mem he
  obtain ⟨n, hn, hiff⟩ := size_kept_iff hsplit hrow
  have hfive : requestedSize tunnelRequest = some 5 := by decide
  obtain rfl : 5 = n := Option.some_inj.mp (hfive.symm.trans hn)
  exact ⟨past, ⟨e :: rest, hsplit.symm⟩, htask ▸ hiff.mpr (by decide)⟩

/-- The largest size is accepted, and stored as `-1`. -/
theorem largest_size_negative :
    ¬∀ past e rest, (run Sample.largestEnv (Sample.announcesTunnel Sample.largestRequest)).trace =
        past ++ e :: rest → ∀ req row, insertion e = some (req, row) →
        ∀ n, requestedSize req = some n → SizeKept Sample.largestEnv
          (run Sample.largestEnv (Sample.announcesTunnel Sample.largestRequest))
          (Pool.eventsOf past e.task) req row n := by
  intro h
  have hmem : (Sample.largestRequest, Sample.largestRow) ∈
      (run Sample.largestEnv (Sample.announcesTunnel Sample.largestRequest)).trace.filterMap
        insertion := by
    rw [Sample.largestEnv_eq]
    decide +kernel
  obtain ⟨e, he, hrow⟩ := List.mem_filterMap.mp hmem
  obtain ⟨past, rest, hsplit⟩ := List.append_of_mem he
  have hkept := h past e rest hsplit _ _ hrow (2 ^ 64 - 1) (by decide)
  exact absurd hkept.inserted (by decide)

end AgentExchange.ControlPlane

import BekenSoc.IpcCmd

/-!
The client end of the remote procedure calls (`rpc_client_call` in `mb_ipc_cmd.c`).

A call is one `ipc_send_cmd` on the RPC channel, and a look at the header of the
response that it has copied into the caller's buffer.  What the peer and the mailbox
do in the meantime is an `Exchange`, and every exchange is allowed.
-/

namespace BekenSoc.RpcClient

open CRuntime IpcCmd

variable {chnlInited : Bool} {bufLen : Nat}

structure CallHdr where
  modId : Nat
  apiId : Nat
  ctrl : Nat
  dataLen : Nat
  deriving DecidableEq

def callHdr (bytes : List Nat) : CallHdr where
  modId := bytes.getD 0 0
  apiId := bytes.getD 1 0
  ctrl := bytes.getD 2 0
  dataLen := bytes.getD 3 0

/-- What `mb_chnl_write` and the wait for `rsp_sema` return, and what the callbacks have
left in the control block when `ipc_send_cmd` looks at it. -/
structure Exchange where
  write : BkErr
  wait : BkErr
  txCmdFailed : Bool
  rspBuf : List Nat
  rspLen : Nat

variable {x : Exchange}

def ipcSendCmd (chnlInited : Bool) (cmdLen bufLen : Nat) (x : Exchange) :
    Except BkErr (Option (List Nat)) :=
  if chnlInited = false then .error .fail
  else if ipcXchgDataMax < cmdLen then .error .errParam
  else if x.write ≠ .ok then .error x.write
  else if x.wait ≠ .ok then .error x.wait
  else if x.txCmdFailed then .error .fail
  else if bufLen = 0 then .ok none
  else if bufLen < x.rspLen then .error .errParam
  else .ok (some (x.rspBuf.take x.rspLen))

/-- `rpc_client_call`, with what `ret_buf` holds afterwards; `bufLen` is 0 without one.
Both halves of the check compare `mod_id`. -/
def rpcClientCall (chnlInited : Bool) (rpcParam : List Nat) (paramLen : Nat)
    (retBuf : List Nat) (bufLen : Nat) (x : Exchange) : BkErr × List Nat :=
  if chnlInited = false then (.fail, retBuf)
  else
    match ipcSendCmd chnlInited paramLen bufLen x with
    | .error e => (e, retBuf)
    | .ok none => (.ok, retBuf)
    | .ok (some rsp) =>
      let retBuf := memcpy retBuf rsp rsp.length
      if (callHdr rpcParam).modId ≠ (callHdr retBuf).modId ∨
          (callHdr rpcParam).modId ≠ (callHdr retBuf).modId then (.fail, retBuf)
      else (.ok, retBuf)

/-- The response answers the same function of the module.  A response of less than two
bytes leaves the `api_id` that the caller's buffer held before. -/
def ApiKept (rpcParam retBuf rsp : List Nat) : Prop :=
  (callHdr (if 2 ≤ rsp.length then rsp else retBuf)).apiId = (callHdr rpcParam).apiId

instance (rpcParam retBuf rsp : List Nat) : Decidable (ApiKept rpcParam retBuf rsp) :=
  inferInstanceAs (Decidable (_ = _))

theorem ipcSendCmd_eq_ok {cmdLen : Nat} {out : Option (List Nat)} (hbuf : 0 < bufLen)
    (hok : ipcSendCmd chnlInited cmdLen bufLen x = .ok out) :
    out = some (x.rspBuf.take x.rspLen) := by
  unfold ipcSendCmd at hok
  split_ifs at hok with _ _ _ _ _ hnone
  · omega
  · cases hok
    rfl

theorem ipcSendCmd_error_ne_ok {cmdLen : Nat} {e : BkErr}
    (herr : ipcSendCmd chnlInited cmdLen bufLen x = .error e) : e ≠ .ok := by
  unfold ipcSendCmd at herr
  split_ifs at herr with _ _ hwrite hwait
  · cases herr
    decide
  · cases herr
    decide
  · cases herr
    exact hwrite
  · cases herr
    exact hwait
  · cases herr
    decide
  · cases herr
    decide

theorem apiId_memcpy (retBuf rsp : List Nat) : (callHdr (memcpy retBuf rsp rsp.length)).apiId =
      (callHdr (if 2 ≤ rsp.length then rsp else retBuf)).apiId := by
  rcases rsp with - | ⟨modId, - | ⟨apiId, rest⟩⟩
  · simp [memcpy, callHdr]
  · simp [memcpy, callHdr]
  · simp [memcpy, callHdr]

theorem rpcClientCall_eq_ok {rpcParam retBuf buf : List Nat} {paramLen : Nat} (hbuf : 0 < bufLen)
    (hok : rpcClientCall chnlInited rpcParam paramLen retBuf bufLen x = (.ok, buf)) :
    buf = memcpy retBuf (x.rspBuf.take x.rspLen) (x.rspBuf.take x.rspLen).length ∧
      (callHdr rpcParam).modId = (callHdr buf).modId := by
  unfold rpcClientCall at hok
  split at hok
  · cases hok
  · split at hok
    · rename_i hsent
      cases hok
      exact absurd rfl (ipcSendCmd_error_ne_ok hsent)
    · rename_i hsent
      cases ipcSendCmd_eq_ok hbuf hsent
    · rename_i hsent
      cases ipcSendCmd_eq_ok hbuf hsent
      dsimp only at hok
      split at hok
      · cases hok
      · rename_i hsame
        cases hok
        exact ⟨rfl, not_not.mp fun hne => hsame (.inl hne)⟩

/-- A response that is accepted has the ids of the call exactly if its `api_id` is that of the call,
which `rpc_client_call` does not compare. -/
theorem rpcClientCall_ids_iff (chnlInited : Bool) (rpcParam retBuf buf : List Nat)
    (paramLen bufLen : Nat) (x : Exchange) (hbuf : 0 < bufLen)
    (hok : rpcClientCall chnlInited rpcParam paramLen retBuf bufLen x = (.ok, buf)) :
    ((callHdr buf).modId = (callHdr rpcParam).modId ∧
      (callHdr buf).apiId = (callHdr rpcParam).apiId) ↔
        ApiKept rpcParam retBuf (x.rspBuf.take x.rspLen) := by
  obtain ⟨rfl, hmod⟩ := rpcClientCall_eq_ok hbuf hok
  rw [and_iff_right hmod.symm, apiId_memcpy]
  rfl

-- A response of function 2 of module 1 to a call of that function.
theorem rpcClientCall_ids_iff_answered :
    ApiKept [1, 2, 1, 0] (List.replicate 8 9) [1, 2, 1, 4, 0, 0, 0, 0] ∧
      (callHdr [1, 2, 1, 4, 0, 0, 0, 0]).apiId = (callHdr [1, 2, 1, 0]).apiId := by
  have hiff := rpcClientCall_ids_iff true [1, 2, 1, 0] (List.replicate 8 9)
    [1, 2, 1, 4, 0, 0, 0, 0] 4 8 ⟨.ok, .ok, false, [1, 2, 1, 4, 0, 0, 0, 0], 8⟩
    (by decide) (by decide)
  exact ⟨hiff.mp (by decide), (hiff.mpr (by decide)).2⟩

-- A response of another function of the same module is accepted.
theorem other_function_accepted :
    ¬ ∀ (chnlInited : Bool) (rpcParam retBuf buf : List Nat) (paramLen bufLen : Nat)
      (x : Exchange), 0 < bufLen →
      rpcClientCall chnlInited rpcParam paramLen retBuf bufLen x = (.ok, buf) →
        (callHdr buf).modId = (callHdr rpcParam).modId ∧
          (callHdr buf).apiId = (callHdr rpcParam).apiId := by
  intro hall
  have hids := hall true [1, 2, 1, 0] (List.replicate 8 0) [1, 3, 1, 4, 0, 0, 0, 0] 4 8
    ⟨.ok, .ok, false, [1, 3, 1, 4, 0, 0, 0, 0], 8⟩ (by decide) (by decide)
  exact absurd hids.2 (by decide)

end BekenSoc.RpcClient

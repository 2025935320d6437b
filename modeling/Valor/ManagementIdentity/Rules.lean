/-
  Management identity: rules for the parts the commands are made of.

  `I` is what is known before a part and survives the other threads, `J` what is known
  after it. A part that reads keeps `I`; the audit parts append one record.
-/
import Valor.ManagementIdentity.Service

namespace Valor.ManagementIdentity

open Python ManagementAudit Prog Interleave ReadCommitted

section Parts

variable {sqlNow : Tid → Utc} {inv C I J : World Db Lock → Prop} {R : Rely (World Db Lock)} {i : Tid}
  {w : World Db Lock} {α : Type}

/-- What the other threads leave true. -/
def Stable (R : Rely (World Db Lock)) (I : World Db Lock → Prop) : Prop :=
  ∀ w w', I w → R w w' → I w'

/-- Safe, with commits of worlds with the property `C`, and any outcome. -/
abbrev Meets (sqlNow : Tid → Utc) (inv : World Db Lock → Prop) (R : Rely (World Db Lock))
    (C : World Db Lock → Prop) (i : Tid) {α : Type} (p : Program α) (w : World Db Lock) : Prop :=
  Safe (database sqlNow).exec inv R (CommitsOnly C i) i (fun _ _ => True) p w

theorem meets_ret (a : α) (w : World Db Lock) : Meets sqlNow inv R C i (.ret a : Program α) w :=
  safe_ret.mpr trivial

theorem meets_raise (e : Error) (w : World Db Lock) :
    Meets sqlNow inv R C i (.raise e : Program α) w :=
  safe_raise.mpr trivial

theorem meets_query {q : Sql} {k : q.Res → Program α} {f : Choice → Db → Except Error q.Res}
    (hq : ∀ ch, (database sqlNow).stmt ch i q = .query (f ch)) (hI : Stable R I)
    (h : I w) (hk : ∀ ch a w', I w' → f ch (w'.view i) = .ok a → Meets sqlNow inv R C i (k a) w') :
    Meets sqlNow inv R C i ((sql q).bind k) w :=
  safe_query (fun _ _ => trivial) hq fun w' hR _ ch a ha => hk ch a w' (hI w w' h hR) ha

theorem meets_requireTenants {tenantIds : Finset Uuid} {k : Unit → Program α} (hI : Stable R I)
    (h : I w) (hk : ∀ w', I w' → Meets sqlNow inv R C i (k ()) w') :
    Meets sqlNow inv R C i ((Service.requireTenants tenantIds).bind k) w := by
  unfold Service.requireTenants
  split
  · rw [bind_eq, bind_assoc]
    refine meets_query (fun _ => rfl) hI h fun _ found w' h' _ => ?_
    exact safe_raiseWhen (fun _ _ => trivial) fun _ => hk w' h'
  · exact hk w h

theorem meets_auditsAppend {record : Record} {k : Unit → Program α} (hI : Stable R I)
    (hJ : ∀ w, I w → J (w.write i fun db => db.appendAudit record)) (h : I w)
    (hk : ∀ w', J w' → Meets sqlNow inv R C i (k ()) w') :
    Meets sqlNow inv R C i ((sql (.auditsAppend record)).bind k) w := by
  refine safe_change (fun _ _ => trivial) (fun _ => rfl) fun w' hR _ v a f hv ha => ?_
  cases ha
  rw [acquire_nil hv]
  exact hk _ (hJ w' (hI w w' h hR))

variable {s : Service} {env : Env}

theorem meets_auditPrincipal {actorId : Uuid} {after : ManagementPrincipal}
    {before : Option ManagementPrincipal} {action : Action} {k : Unit → Program α}
    (hI : Stable R I) (hJ : ∀ w record, I w → J (w.write i fun db => db.appendAudit record))
    (h : I w) (hk : ∀ w', J w' → Meets sqlNow inv R C i (k ()) w') :
    Meets sqlNow inv R C i ((s.auditPrincipal env actorId after before action).bind k) w := by
  unfold Service.auditPrincipal
  rw [bind_eq, bind_assoc]
  exact safe_lift (fun _ _ => trivial) fun record _ =>
    meets_auditsAppend hI (fun w => hJ w record) h hk

theorem meets_auditCredential {actorId : Uuid} {after : ManagementCredential}
    {before : Option ManagementCredential} {action : Action} {k : Unit → Program α}
    (hI : Stable R I) (hJ : ∀ w record, I w → J (w.write i fun db => db.appendAudit record))
    (h : I w) (hk : ∀ w', J w' → Meets sqlNow inv R C i (k ()) w') :
    Meets sqlNow inv R C i ((s.auditCredential env actorId after before action).bind k) w := by
  unfold Service.auditCredential
  simp only [bind_eq, bind_assoc]
  refine safe_lift (fun _ _ => trivial) fun _ _ => ?_
  refine safe_lift (fun _ _ => trivial) fun _ _ => ?_
  exact safe_lift (fun _ _ => trivial) fun record _ =>
    meets_auditsAppend hI (fun w => hJ w record) h hk

theorem meets_checkExpiry {now : Utc} {expiresAt : Option Datetime} {k : Unit → Program α}
    (hk : Meets sqlNow inv R C i (k ()) w) :
    Meets sqlNow inv R C i ((Service.checkExpiry now expiresAt).bind k) w := by
  match expiresAt with
  | none => exact hk
  | some (.naive ..) => exact meets_raise _ w
  | some (.aware e) => exact safe_raiseWhen (fun _ _ => trivial) fun _ => hk

/-- A new credential has passed its constructor. -/
theorem meets_newCredential {principalId : Uuid} {label : Option String}
    {expiresAt : Option Datetime} {k : IssuedCredential → Program α}
    (hk : ∀ issued, Credential.new env.credentialId principalId
      (s.hmacSha256 s.pepper env.secret) label (.aware env.now) expiresAt none =
        .ok issued.credential → Meets sqlNow inv R C i (k issued) w) :
    Meets sqlNow inv R C i ((s.newCredential env principalId label expiresAt).bind k) w := by
  unfold Service.newCredential
  simp only [bind_eq, bind_assoc]
  exact safe_lift (fun _ _ => trivial) fun credential hc => hk _ hc

end Parts

/-! ## What the constructors and the reads give -/

theorem getPrincipal_some {db : Db} {k : Uuid} {p : ManagementPrincipal}
    (h : db.getPrincipal k = some p) :
    ∃ row ∈ db.principals, row.principalId = k ∧ ∃ t, p = principalFromRow row t := by
  obtain ⟨row, hrow, rfl⟩ := Option.map_eq_some_iff.mp h
  obtain ⟨hmem, hkey⟩ := Table.find?_some hrow
  exact ⟨row, hmem, hkey, _, rfl⟩

theorem getCredential_some {db : Db} {k : Uuid} {c : ManagementCredential}
    (h : db.getCredential k = some c) :
    ∃ row ∈ db.credentials, row.credentialId = k ∧ c = credentialFromRow row := by
  obtain ⟨row, hrow, rfl⟩ := Option.map_eq_some_iff.mp h
  obtain ⟨hmem, hkey⟩ := Table.find?_some hrow
  exact ⟨row, hmem, hkey, rfl⟩

theorem ofPrincipal_ok {p : ManagementPrincipal} {row : ManagementPrincipalRow}
    (h : ManagementPrincipalRow.ofPrincipal p = .ok row) :
    row.principalId = p.principalId ∧ row.canManagePrincipals = p.canManagePrincipals ∧
      row.disabledAt.isSome = p.disabledAt.isSome := by
  obtain ⟨createdAt, _, h⟩ := Except.bind_ok_cases h
  obtain ⟨disabledAt, hd, h⟩ := Except.bind_ok_cases h
  obtain ⟨_, _, h⟩ := Except.bind_ok_cases h
  cases h
  exact ⟨rfl, rfl, Except.isSome_mapM hd⟩

end Valor.ManagementIdentity

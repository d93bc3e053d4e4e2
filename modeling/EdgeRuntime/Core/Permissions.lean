import Mathlib
import EdgeRuntime.Verified.Fallible

/-!
# The network permissions of a user worker

`Permissions` (crates/sb_core/permissions.rs) answers three network checks
of deno's extensions: `FetchPermissions::check_net_url` for `fetch`,
`WebSocketPermissions::check_net_url` for `WebSocket`, and
`NetPermissions::check_net` for sockets.  The three share one body: with net
access disabled they refuse, without an allow list they allow, and otherwise
they build a `NetDescriptor` of the host and a port and allow exactly the
descriptors the list contains, compared field by field.  The URL checks take
the port from `Url::port`, which is `None` for a URL whose port is its
scheme's default; the socket check is given the port the socket connects to.

`DenoRuntime::new` (crates/base/src/deno_runtime.rs) builds the allow list
of a user worker by parsing each string of its configuration with
`NetDescriptor::from_str`.  The host type and the two parsers of deno's
permissions crate are parameters: `H` with decidable equality, the parser
of a host, and `from_str` of a descriptor.

## Main results

* `checkNetUrl_eq_checkNet`: a URL check is the socket check at the URL's
  host and the port `Url::port` returns.
* `netChecks_disagree`: an entry without a port admits `https://h` through
  `fetch` and `WebSocket` and refuses a socket to `h:443`; the entry `h:443`
  does the opposite.
-/

namespace EdgeRuntime.Core

open EdgeRuntime.Verified.Fallible

/-! ## URLs with a host -/

/-- `url::parser::default_port`. -/
def defaultPort : String → Option UInt16
  | "http" | "ws" => some 80
  | "https" | "wss" => some 443
  | "ftp" => some 21
  | _ => none

/-- A parsed `Url` as the checks read it: the scheme, `Url::host_str`, and
the port `Url::port` returns.  `Url::parse` does not keep a port that is
the scheme's default. -/
structure NetUrl where
  scheme : String
  hostStr : Option String
  port : Option UInt16
  port_ne_default : port = defaultPort scheme → port = none

namespace NetUrl

/-- The URL `Url::parse` makes of a scheme, a host and the port written in
the text, if any. -/
def parse (scheme : String) (hostStr : Option String) (writtenPort : Option UInt16) : NetUrl where
  scheme := scheme
  hostStr := hostStr
  port := if writtenPort = defaultPort scheme then none else writtenPort
  port_ne_default := by
    intro h
    by_cases hw : writtenPort = defaultPort scheme
    · exact if_pos hw
    · rw [if_neg hw] at h
      exact absurd h hw

/-- `Url::port_or_known_default`: the port a connection to the URL uses. -/
def portOrKnownDefault (u : NetUrl) : Option UInt16 := u.port.or (defaultPort u.scheme)

end NetUrl

/-! ## Descriptors and errors -/

/-- `deno_core::error::AnyError` as the checks build it: a class and a
message. -/
structure AnyError where
  className : String
  message : String
  deriving DecidableEq, Repr

/-- `custom_error(class, message)`. -/
def customError (className message : String) : AnyError := ⟨className, message⟩

/-- `generic_error(message)`. -/
def genericError (message : String) : AnyError := ⟨"Error", message⟩

/-- `deno_permissions::NetDescriptor`: a host and maybe a port. -/
structure NetDescriptor (H : Type) where
  host : H
  port : Option UInt16
  deriving DecidableEq, Repr

/-- `impl Display for NetDescriptor`: the host, and `:port` after it when
there is one. -/
def NetDescriptor.display {H : Type} [ToString H] (d : NetDescriptor H) : String :=
  match d.port with
  | none => toString d.host
  | some port => toString d.host ++ ":" ++ toString port

/-- The error of a check with net access disabled. -/
def netAccessDisabledError : AnyError :=
  customError "PermissionDenied" "net access disabled for the user worker"

/-- The error of a descriptor the allow list does not contain. -/
def notAllowedError {H : Type} [ToString H] (d : NetDescriptor H) : AnyError :=
  customError "PermissionDenied" ("Access to " ++ d.display ++ " is not allowed for user worker")

/-! ## The checks -/

/-- `Permissions`. -/
structure Permissions (H : Type) where
  netAccessDisabled : Bool
  allowNet : Option (List (NetDescriptor H))

section Config

variable {H : Type}

/-- `Permissions::new`. -/
def Permissions.new (netAccessDisabled : Bool) (allowNet : Option (List (NetDescriptor H))) :
    Permissions H :=
  ⟨netAccessDisabled, allowNet⟩

/-- The descriptor of a URL check: the host of `url.host_str()`, parsed,
and `url.port()`. -/
def urlDescriptor (parseHost : String → Except AnyError H) (url : NetUrl) :
    Except AnyError (NetDescriptor H) := do
  let host ← match url.hostStr with
    | some host => .ok host
    | none => .error (genericError "empty host")
  let hostname ← parseHost host
  pure ⟨hostname, url.port⟩

/-- The allow list `DenoRuntime::new` gives a user worker: each string of
the configuration parsed by `NetDescriptor::from_str`, the first error
ending the parse. -/
def parseAllowNet (fromStr : String → Except AnyError (NetDescriptor H)) :
    Option (List String) → Except AnyError (Option (List (NetDescriptor H)))
  | none => .ok none
  | some allowNet => some <$> allowNet.mapM fromStr

/-- The permissions `DenoRuntime::new` installs for a user worker. -/
def userWorkerPermissions (fromStr : String → Except AnyError (NetDescriptor H))
    (netAccessDisabled : Bool) (allowNet : Option (List String)) : Except AnyError (Permissions H) := do
  let allowNet ← parseAllowNet fromStr allowNet
  pure (Permissions.new netAccessDisabled allowNet)

/-- The permissions of an allow list whose strings all parse. -/
theorem userWorkerPermissions_of_parsed {fromStr : String → Except AnyError (NetDescriptor H)}
    {allowNet : List String} {g : String → NetDescriptor H} (netAccessDisabled : Bool)
    (h : ∀ s ∈ allowNet, fromStr s = .ok (g s)) :
    userWorkerPermissions fromStr netAccessDisabled (some allowNet) =
      .ok (Permissions.new netAccessDisabled (some (allowNet.map g))) := by
  rw [userWorkerPermissions, parseAllowNet, mapM_eq_ok h]
  rfl

end Config

section Checks

variable {H : Type} [DecidableEq H] [ToString H]

/-- The body the three checks share: refuse with net access disabled, allow
without an allow list, and otherwise build the descriptor and allow it when
the list contains it. -/
def checkDescriptor (perms : Permissions H) (descriptor : Except AnyError (NetDescriptor H)) :
    Except AnyError Unit :=
  if perms.netAccessDisabled then .error netAccessDisabledError
  else match perms.allowNet with
    | none => .ok ()
    | some allowNet => do
      let d ← descriptor
      if allowNet.contains d then .ok () else .error (notAllowedError d)

/-- `FetchPermissions::check_net_url`. -/
def FetchPermissions.checkNetUrl (perms : Permissions H) (parseHost : String → Except AnyError H)
    (url : NetUrl) : Except AnyError Unit :=
  checkDescriptor perms (urlDescriptor parseHost url)

/-- `WebSocketPermissions::check_net_url`. -/
def WebSocketPermissions.checkNetUrl (perms : Permissions H) (parseHost : String → Except AnyError H)
    (url : NetUrl) : Except AnyError Unit :=
  checkDescriptor perms (urlDescriptor parseHost url)

/-- `NetPermissions::check_net` of a host and a port. -/
def NetPermissions.checkNet (perms : Permissions H) (parseHost : String → Except AnyError H)
    (host : String × Option UInt16) : Except AnyError Unit :=
  checkDescriptor perms (do
    let hostname ← parseHost host.1
    pure ⟨hostname, host.2⟩)

/-! ## What the checks answer -/

variable {perms : Permissions H} {parseHost : String → Except AnyError H}

/-- A descriptor the allow list contains is allowed. -/
theorem checkDescriptor_mem {allowNet : List (NetDescriptor H)} {d : NetDescriptor H}
    (hon : perms.netAccessDisabled = false) (hallow : perms.allowNet = some allowNet)
    (hd : d ∈ allowNet) : checkDescriptor perms (.ok d) = .ok () := by
  rw [checkDescriptor, if_neg (by rw [hon]; decide), hallow]
  exact if_pos (by simpa using hd)

/-- A descriptor the allow list lacks is refused, with its text in the
message. -/
theorem checkDescriptor_not_mem {allowNet : List (NetDescriptor H)} {d : NetDescriptor H}
    (hon : perms.netAccessDisabled = false) (hallow : perms.allowNet = some allowNet)
    (hd : d ∉ allowNet) : checkDescriptor perms (.ok d) = .error (notAllowedError d) := by
  rw [checkDescriptor, if_neg (by rw [hon]; decide), hallow]
  exact if_neg (by simpa using hd)

/-- The socket check of a host that parses checks its descriptor. -/
theorem checkNet_of_parse {host : String} {hostname : H} (port : Option UInt16)
    (hparse : parseHost host = .ok hostname) :
    NetPermissions.checkNet perms parseHost (host, port) = checkDescriptor perms (.ok ⟨hostname, port⟩) := by
  rw [NetPermissions.checkNet]
  simp only [hparse]
  rfl

/-- A URL check is the socket check at the URL's host and the port
`Url::port` returns: the port a connection uses when it is not the scheme's
default, and none when it is. -/
theorem checkNetUrl_eq_checkNet {url : NetUrl} {host : String} (hhost : url.hostStr = some host) :
    FetchPermissions.checkNetUrl perms parseHost url = NetPermissions.checkNet perms parseHost (host, url.port) := by
  rw [FetchPermissions.checkNetUrl, urlDescriptor, NetPermissions.checkNet]
  simp only [hhost]
  rfl

end Checks

/-! ## The checks disagree on a scheme's default port -/

/-- For a URL with the host `host` and no written port, whose scheme's
default port is `d` (`https://host` and 443): with the allow list of one
entry without a port, `fetch` and `WebSocket` are allowed and a socket to
`host:d` is refused; with the one entry `host:d`, the other way round. -/
theorem netChecks_disagree {H : Type} [DecidableEq H] [ToString H]
    (fromStr : String → Except AnyError (NetDescriptor H)) (parseHost : String → Except AnyError H)
    {host entry entryWithPort : String} {hostname : H} {d : UInt16} (url : NetUrl)
    (hparse : parseHost host = .ok hostname) (hhost : url.hostStr = some host)
    (hport : url.port = none) (hdefault : defaultPort url.scheme = some d)
    (hentry : fromStr entry = .ok ⟨hostname, none⟩)
    (hentryWithPort : fromStr entryWithPort = .ok ⟨hostname, some d⟩) :
    url.portOrKnownDefault = some d ∧
      (∃ perms, userWorkerPermissions fromStr false (some [entry]) = .ok perms ∧
        FetchPermissions.checkNetUrl perms parseHost url = .ok () ∧
        WebSocketPermissions.checkNetUrl perms parseHost url = .ok () ∧
        NetPermissions.checkNet perms parseHost (host, some d) =
          .error (notAllowedError ⟨hostname, some d⟩)) ∧
      (∃ perms, userWorkerPermissions fromStr false (some [entryWithPort]) = .ok perms ∧
        FetchPermissions.checkNetUrl perms parseHost url = .error (notAllowedError ⟨hostname, none⟩) ∧
        WebSocketPermissions.checkNetUrl perms parseHost url =
          .error (notAllowedError ⟨hostname, none⟩) ∧
        NetPermissions.checkNet perms parseHost (host, some d) = .ok ()) := by
  have hconnect : url.portOrKnownDefault = some d := by
    rw [NetUrl.portOrKnownDefault, hport, hdefault, Option.none_or]
  -- both URL checks are the socket check at the port `Url::port` returns, none
  have hurl : ∀ perms : Permissions H,
      FetchPermissions.checkNetUrl perms parseHost url = checkDescriptor perms (.ok ⟨hostname, none⟩) := by
    intro perms
    rw [checkNetUrl_eq_checkNet hhost, hport, checkNet_of_parse none hparse]
  have hportless := userWorkerPermissions_of_parsed (g := fun _ => ⟨hostname, none⟩) false
    (fun s hs => by rw [List.mem_singleton.1 hs]; exact hentry)
  have hported := userWorkerPermissions_of_parsed (g := fun _ => ⟨hostname, some d⟩) false
    (fun s hs => by rw [List.mem_singleton.1 hs]; exact hentryWithPort)
  refine ⟨hconnect, ⟨_, hportless, ?_, ?_, ?_⟩, ⟨_, hported, ?_, ?_, ?_⟩⟩
  · exact (hurl _).trans (checkDescriptor_mem rfl rfl List.mem_cons_self)
  · exact (hurl _).trans (checkDescriptor_mem rfl rfl List.mem_cons_self)
  · rw [checkNet_of_parse _ hparse]
    exact checkDescriptor_not_mem rfl rfl (by simp)
  · exact (hurl _).trans (checkDescriptor_not_mem rfl rfl (by simp))
  · exact (hurl _).trans (checkDescriptor_not_mem rfl rfl (by simp))
  · rw [checkNet_of_parse _ hparse]
    exact checkDescriptor_mem rfl rfl List.mem_cons_self

/-- `NetDescriptor::from_str` on the entries `example.com` and
`example.com:443`. -/
def exampleEntry : String → Except AnyError (NetDescriptor String)
  | "example.com:443" => .ok ⟨"example.com", some 443⟩
  | entry => .ok ⟨entry, none⟩

/-- `fetch("https://example.com")` against `allow_net: ["example.com"]` and
against `allow_net: ["example.com:443"]`, next to a socket to
`example.com:443`. -/
theorem netChecks_disagree_example :
    (NetUrl.parse "https" (some "example.com") none).portOrKnownDefault = some 443 ∧
      (∃ perms, userWorkerPermissions exampleEntry false (some ["example.com"]) = .ok perms ∧
        FetchPermissions.checkNetUrl perms .ok (NetUrl.parse "https" (some "example.com") none) = .ok () ∧
        WebSocketPermissions.checkNetUrl perms .ok (NetUrl.parse "https" (some "example.com") none) =
          .ok () ∧
        NetPermissions.checkNet perms .ok ("example.com", some 443) =
          .error (notAllowedError ⟨"example.com", some 443⟩)) ∧
      (∃ perms, userWorkerPermissions exampleEntry false (some ["example.com:443"]) = .ok perms ∧
        FetchPermissions.checkNetUrl perms .ok (NetUrl.parse "https" (some "example.com") none) =
          .error (notAllowedError ⟨"example.com", none⟩) ∧
        WebSocketPermissions.checkNetUrl perms .ok (NetUrl.parse "https" (some "example.com") none) =
          .error (notAllowedError ⟨"example.com", none⟩) ∧
        NetPermissions.checkNet perms .ok ("example.com", some 443) = .ok ()) :=
  netChecks_disagree exampleEntry .ok (NetUrl.parse "https" (some "example.com") none) rfl rfl
    (by decide) (by decide) rfl rfl

end EdgeRuntime.Core

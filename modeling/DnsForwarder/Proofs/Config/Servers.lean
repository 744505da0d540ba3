import DnsForwarder.Engine.Settings
import DnsForwarder.Proofs.Address.Text
import DnsForwarder.Proofs.DomainName.Grammar

/-! The servers of a configuration. A server is given as a socket address, as an
address alone, or as an IPv6 address in a pair of brackets. What is read beyond
that are addresses with brackets of any number on either side; every other entry
spoils the configuration. -/

namespace DnsForwarder

/-- The brackets that an address alone may stand in: none, or a pair where it is
an IPv6 address. -/
inductive Paired : IpAddress → (opened closed : Nat) → Prop where
  | bare (address : IpAddress) : Paired address 0 0
  | pair (address : Ipv6) : Paired (.v6 address) 1 1

def amidBrackets (opened closed : Nat) (text : List Char) : List Char :=
  List.replicate opened '[' ++ (text ++ List.replicate closed ']')

inductive IsServer : Endpoint → List Char → Prop where
  | socket {endpoint : Endpoint} {text : List Char}
    (hsocket : endpoint.IsText text) : IsServer endpoint text
  | address {address : IpAddress} {text : List Char} {opened closed : Nat}
      (haddress : address.IsText text)
      (hpaired : Paired address opened closed) :
      IsServer (.ofAddress defaultDnsPort address)
        (amidBrackets opened closed text)

/-- An address with more or fewer brackets around it than it may have. -/
inductive IsLoose : Endpoint → List Char → Prop where
  | address {address : IpAddress} {text : List Char} {opened closed : Nat}
      (haddress : address.IsText text)
      (hloose : ¬Paired address opened closed) :
      IsLoose (.ofAddress defaultDnsPort address)
        (amidBrackets opened closed text)

def Malformed (server : String) : Prop :=
  ∀ endpoint, ¬IsServer endpoint (Text.trim server.toList) ∧
    ¬IsLoose endpoint (Text.trim server.toList)

/-- An entry is read as the server that it is given for, and one that is given
for none is rejected. -/
def ReadByRule (server : String) : Prop :=
  (∀ endpoint, IsServer endpoint (Text.trim server.toList) →
      parseServer server = .ok endpoint) ∧
    ((∀ endpoint, ¬IsServer endpoint (Text.trim server.toList)) →
      ∃ fault, parseServer server = .error (.validation fault))

open Address

variable {address other : IpAddress} {endpoint : Endpoint}
  {text bare : List Char} {opened closed : Nat} {server : String}

section Brackets

theorem bracket_not_mem {bracket : Char}
    (hbracket : isCharacter bracket = false) (haddress : address.IsText text) :
    bracket ∉ text := by
  intro hmem
  have hcharacter := (undotted_of_isText haddress).characters bracket hmem
  rw [hbracket] at hcharacter
  cases hcharacter

theorem dropWhile_of_not_mem {c : Char} (hnot : c ∉ text) :
    text.dropWhile (· == c) = text := by
  cases text with
  | nil => rfl
  | cons first rest =>
      have hfirst : ¬first = c := fun hsame => hnot (hsame ▸ List.mem_cons_self)
      simp [hfirst]

theorem exists_eq_replicate_append (c : Char) (text : List Char) :
    ∃ count, text = List.replicate count c ++ text.dropWhile (· == c) := by
  have hall : ∀ d ∈ text.takeWhile (· == c), d = c := by
    intro d hd
    exact beq_iff_eq.mp (List.mem_takeWhile_imp (p := (· == c)) hd)
  refine ⟨(text.takeWhile (· == c)).length, ?_⟩
  rw [← List.eq_replicate_of_mem hall]
  exact List.takeWhile_append_dropWhile.symm

theorem exists_eq_amidBrackets (text : List Char) :
    ∃ opened closed, text =
      amidBrackets opened closed (stripBrackets text) := by
  obtain ⟨opened, hopened⟩ := exists_eq_replicate_append '[' text
  obtain ⟨closed, hclosed⟩ :=
    exists_eq_replicate_append ']' (text.dropWhile (· == '[')).reverse
  have hbehind := congrArg List.reverse hclosed
  rw [List.reverse_reverse, List.reverse_append, List.reverse_replicate]
    at hbehind
  exact ⟨opened, closed,
    hopened.trans (congrArg (List.replicate opened '[' ++ ·) hbehind)⟩

theorem stripBrackets_amidBrackets (haddress : address.IsText text) :
    stripBrackets (amidBrackets opened closed text) = text := by
  have hopen : '[' ∉ text ++ List.replicate closed ']' := by
    rw [List.mem_append, not_or]
    refine ⟨bracket_not_mem rfl haddress, fun hmem => ?_⟩
    exact absurd (List.eq_of_mem_replicate hmem) (by decide)
  have hclose : ']' ∉ text.reverse := by
    rw [List.mem_reverse]
    exact bracket_not_mem rfl haddress
  have hfront : ∀ c ∈ List.replicate opened '[', (c == '[') = true :=
    fun c hc => beq_iff_eq.mpr (List.eq_of_mem_replicate hc)
  have hback : ∀ c ∈ List.replicate closed ']', (c == ']') = true :=
    fun c hc => beq_iff_eq.mpr (List.eq_of_mem_replicate hc)
  simp only [stripBrackets, amidBrackets, List.dropWhile_append_of_pos hfront,
    dropWhile_of_not_mem hopen, List.reverse_append, List.reverse_replicate,
    List.dropWhile_append_of_pos hback, dropWhile_of_not_mem hclose,
    List.reverse_reverse]

theorem count_amidBrackets (opened closed : Nat)
    (haddress : address.IsText text) :
    (amidBrackets opened closed text).count '[' = opened ∧
      (amidBrackets opened closed text).count ']' = closed := by
  have hopen : text.count '[' = 0 :=
    List.count_eq_zero.mpr (bracket_not_mem rfl haddress)
  have hclose : text.count ']' = 0 :=
    List.count_eq_zero.mpr (bracket_not_mem rfl haddress)
  simp [amidBrackets, List.count_replicate, hopen, hclose]

theorem amidBrackets_inj {front back : Nat} (haddress : address.IsText text)
    (hother : other.IsText bare)
    (hsame : amidBrackets opened closed text = amidBrackets front back bare) :
    address = other ∧ opened = front ∧ closed = back := by
  have htext : text = bare := by
    rw [← stripBrackets_amidBrackets haddress, hsame,
      stripBrackets_amidBrackets hother]
  have hread := parse?_eq_some_iff.mpr (htext ▸ haddress)
  rw [parse?_eq_some_iff.mpr hother] at hread
  obtain ⟨hopened, hclosed⟩ := count_amidBrackets opened closed haddress
  obtain ⟨hfront, hback⟩ := count_amidBrackets front back hother
  rw [hsame] at hopened hclosed
  exact ⟨(Option.some.inj hread).symm, hopened.symm.trans hfront,
    hclosed.symm.trans hback⟩

end Brackets

section Sockets

theorem exists_port_of_isText (hsocket : endpoint.IsText text) :
    ∃ front port digits, text = front ++ ':' :: digits ∧
      Text.IsNumeral 10 port digits := by
  cases hsocket with
  | v4 address hport => exact ⟨address.text, _, _, rfl, hport⟩
  | @v6 address port text digits haddress hport =>
      exact ⟨'[' :: (text ++ [']']), _, digits, by simp, hport⟩
  | @zoned address port scope text zone digits haddress hzone hport =>
      exact ⟨'[' :: (text ++ '%' :: (zone ++ [']'])), _, digits, by simp, hport⟩

theorem getLast?_ne_bracket (hsocket : endpoint.IsText text) :
    text.getLast? ≠ some ']' := by
  obtain ⟨front, port, digits, rfl, hport⟩ := exists_port_of_isText hsocket
  obtain ⟨hsome, hdigits⟩ := hport.digits (by decide) (by decide)
  rw [List.append_cons, List.getLast?_append_of_ne_nil _ hsome]
  exact fun hlast =>
    absurd (hdigits ']' (List.mem_of_getLast? hlast)) (by decide)

theorem rest_eq_nil_of_isText {embedded : Ipv4} {rest : List Char}
    (haddress : address.IsText text)
    (hread : readIpv4 text = some (embedded, rest)) : rest = [] := by
  cases haddress with
  | v4 address =>
      have hwhole : readIpv4 address.text = some (address, []) :=
        readIpv4_eq_some_iff.mpr ⟨(List.append_nil _).symm, breaks_nil 10⟩
      rw [hwhole] at hread
      cases hread
      rfl
  | v6 haddress =>
      have hnone := readIpv4_of_isText haddress closed_nil
      rw [List.append_nil, hread] at hnone
      cases hnone

/-- No socket address is an address alone, whatever brackets this stands in. -/
theorem not_isText_amidBrackets (haddress : address.IsText text) :
    ¬endpoint.IsText (amidBrackets opened closed text) := by
  intro hsocket
  have hlast := getLast?_ne_bracket hsocket
  cases closed with
  | succ closed =>
      rw [amidBrackets, ← List.append_assoc, List.replicate_succ',
        ← List.append_assoc, List.getLast?_concat] at hlast
      exact hlast rfl
  | zero =>
      have hclose : ']' ∉ amidBrackets opened 0 text := by
        rw [← List.count_eq_zero]
        exact (count_amidBrackets opened 0 haddress).2
      generalize hall : amidBrackets opened 0 text = all at hsocket hclose
      cases hsocket with
      | @v4 port digits embedded hport =>
          have hread : readIpv4 (embedded.text ++ ':' :: digits) =
              some (embedded, ':' :: digits) :=
            readIpv4_eq_some_iff.mpr ⟨rfl, (stops_colon digits).decimal⟩
          rw [← hall] at hread
          cases opened with
          | zero =>
              have hbare : amidBrackets 0 0 text = text := List.append_nil text
              rw [hbare] at hread
              cases rest_eq_nil_of_isText haddress hread
          | succ opened =>
              have hnone := (closed_cons (c := '[') (by decide)
                (List.replicate opened '[' ++ (text ++ []))).1.readIpv4
              cases hread.symm.trans hnone
      | v6 => exact hclose (by simp)
      | zoned => exact hclose (by simp)

end Sockets

theorem IsLoose.not_isServer (hloose : IsLoose endpoint text)
    (server : Endpoint) :
    ¬IsServer server text := by
  obtain ⟨haddress, hbrackets⟩ := hloose
  intro hserver
  generalize hall : amidBrackets _ _ _ = all at hserver
  cases hserver with
  | socket hsocket =>
      rw [← hall] at hsocket
      exact not_isText_amidBrackets haddress hsocket
  | address hother hpaired =>
      obtain ⟨rfl, rfl, rfl⟩ := amidBrackets_inj haddress hother hall
      exact hbrackets hpaired

theorem readServer?_eq_some_iff :
    readServer? text = some endpoint ↔ IsServer endpoint text ∨
      IsLoose endpoint text := by
  unfold readServer?
  constructor
  · intro hread
    split at hread
    next socket hsocket =>
      cases hread
      exact .inl (.socket (Endpoint.parse?_eq_some_iff.mp hsocket))
    next =>
      obtain ⟨address, hparse, rfl⟩ := Option.map_eq_some_iff.mp hread
      have haddress := parse?_eq_some_iff.mp hparse
      obtain ⟨opened, closed, htext⟩ := exists_eq_amidBrackets text
      rw [htext]
      by_cases hpaired : Paired address opened closed
      · exact .inl (.address haddress hpaired)
      · exact .inr (.address haddress hpaired)
  · have hamid {address : IpAddress} {bare : List Char} {opened closed : Nat}
        (haddress : address.IsText bare) :
        readServer? (amidBrackets opened closed bare) =
          some (.ofAddress defaultDnsPort address) := by
      have hnone :
          Endpoint.parse? (amidBrackets opened closed bare) = none := by
        by_contra hsome
        obtain ⟨socket, hsocket⟩ := Option.ne_none_iff_exists'.mp hsome
        exact not_isText_amidBrackets haddress
          (Endpoint.parse?_eq_some_iff.mp hsocket)
      rw [readServer?, hnone, stripBrackets_amidBrackets haddress,
        parse?_eq_some_iff.mpr haddress]
      rfl
    rintro ((hsocket | ⟨haddress, -⟩) | ⟨haddress, -⟩)
    · rw [Endpoint.parse?_eq_some_iff.mpr hsocket]
    · exact hamid haddress
    · exact hamid haddress

theorem parseServer_eq_ok_iff :
    parseServer server = .ok endpoint ↔
      IsServer endpoint (Text.trim server.toList) ∨
        IsLoose endpoint (Text.trim server.toList) := by
  rw [← readServer?_eq_some_iff]
  simp only [parseServer]
  split
  next found hread => simp [hread]
  next hread => simp [hread]

theorem parseServer_eq_error_iff :
    parseServer server =
        .error (.validation
          (.badServer (String.ofList (Text.trim server.toList)))) ↔
      Malformed server := by
  have hmalformed : Malformed server ↔
      readServer? (Text.trim server.toList) = none := by
    simp only [Malformed, ← not_or, ← readServer?_eq_some_iff,
      Option.eq_none_iff_forall_ne_some, ne_eq]
  rw [hmalformed]
  simp only [parseServer]
  split
  next found hread => simp [hread]
  next hread => simp [hread]

theorem readByRule_iff :
    ReadByRule server ↔
      ∀ endpoint, ¬IsLoose endpoint (Text.trim server.toList) := by
  constructor
  · rintro ⟨-, hrejected⟩ endpoint hloose
    obtain ⟨fault, herror⟩ := hrejected hloose.not_isServer
    rw [parseServer_eq_ok_iff.mpr (.inr hloose)] at herror
    cases herror
  · intro hnone
    refine ⟨fun endpoint hserver => parseServer_eq_ok_iff.mpr (.inl hserver),
      fun hnot => ?_⟩
    exact ⟨_, parseServer_eq_error_iff.mpr fun endpoint =>
      ⟨hnot endpoint, hnone endpoint⟩⟩

section Printed

theorem parseServer_endpoint (endpoint : Endpoint) :
    parseServer (toString endpoint) = .ok endpoint := by
  have htext : Text.trim (toString endpoint).toList = endpoint.text :=
    (congrArg Text.trim String.toList_ofList).trans
      (Text.trim_of_not_blank endpoint.not_blank_text)
  rw [parseServer_eq_ok_iff, htext]
  exact .inl (.socket endpoint.isText_text)

theorem parseServer_address (address : IpAddress) :
    parseServer (toString address) =
      .ok (.ofAddress defaultDnsPort address) := by
  have htext : Text.trim (toString address).toList =
      amidBrackets 0 0 address.text := by
    refine (congrArg Text.trim String.toList_ofList).trans ?_
    rw [Text.trim_of_not_blank (not_blank_text address)]
    exact (List.append_nil _).symm
  rw [parseServer_eq_ok_iff, htext]
  exact .inl (.address (isText_text address) (.bare address))

end Printed

section Lists

theorem exists_endpoint_of_not_malformed (hserver : ¬Malformed server) :
    ∃ endpoint, parseServer server = .ok endpoint := by
  obtain ⟨endpoint, hread⟩ := not_forall.mp hserver
  rw [← not_or, not_not] at hread
  exact ⟨endpoint, parseServer_eq_ok_iff.mpr hread⟩

theorem mapM_parseServer_of_malformed {servers : List String}
    (hmalformed : ∃ server ∈ servers, Malformed server) :
    ∃ front first rest, servers = front ++ first :: rest ∧
      (∀ server ∈ front, ¬Malformed server) ∧ Malformed first ∧
      servers.mapM parseServer =
        .error (.validation
          (.badServer (String.ofList (Text.trim first.toList)))) := by
  induction servers with
  | nil => exact absurd hmalformed (by simp)
  | cons server servers ih =>
      by_cases hserver : Malformed server
      · refine ⟨[], server, servers, rfl, nofun, hserver, ?_⟩
        rw [List.mapM_cons, parseServer_eq_error_iff.mpr hserver]
        rfl
      · obtain ⟨endpoint, hendpoint⟩ := exists_endpoint_of_not_malformed hserver
        rw [List.exists_mem_cons_iff] at hmalformed
        obtain ⟨front, first, rest, rfl, hfront, hfirst, herror⟩ :=
          ih (hmalformed.resolve_left hserver)
        refine ⟨server :: front, first, rest, rfl,
          List.forall_mem_cons.mpr ⟨hserver, hfront⟩, hfirst, ?_⟩
        rw [List.mapM_cons, hendpoint, herror]
        rfl

theorem config_of_malformed {config : Config}
    (hmalformed : ∃ server ∈ config.dns.servers, Malformed server) :
    ∃ front first rest, config.dns.servers = front ++ first :: rest ∧
      (∀ server ∈ front, ¬Malformed server) ∧ Malformed first ∧
      let error :=
        .validation (.badServer (String.ofList (Text.trim first.toList)))
      config.dns.endpoints = .error error ∧ Settings.ofConfig config.dns =
      .error error ∧ config.validate = .error error := by
  obtain ⟨front, first, rest, hservers, hfront, hfirst, herror⟩ :=
    mapM_parseServer_of_malformed hmalformed
  refine ⟨front, first, rest, hservers, hfront, hfirst, herror, ?_, ?_⟩
  · rw [Settings.ofConfig, DnsConfig.endpoints, herror]
    rfl
  · have hsome : config.dns.servers ≠ [] := by
      rw [hservers]
      exact List.append_ne_nil_of_right_ne_nil _ (List.cons_ne_nil _ _)
    rw [Config.validate, if_neg hsome, DnsConfig.endpoints, herror]
    rfl

end Lists

/-- An entry is read as the server that it is given for or as an address in
loose brackets, without the white space around it; the port of an address alone
is that of the service. What is printed for a server is read as the server.
Every other entry is rejected, and with it the configuration. -/
theorem servers_are_read_despite_loose_brackets (server : String)
    (socket : Endpoint) (address : IpAddress) (config : Config) :
    let trimmed := Text.trim server.toList
    (Text.Trims server.toList trimmed ∧
      (∀ endpoint, parseServer server = .ok endpoint ↔
        IsServer endpoint trimmed ∨ IsLoose endpoint trimmed) ∧
      (parseServer server =
        .error (.validation (.badServer (String.ofList trimmed))) ↔
        ∀ endpoint, ¬IsServer endpoint trimmed ∧ ¬IsLoose endpoint trimmed) ∧
      (ReadByRule server ↔ ∀ endpoint, ¬IsLoose endpoint trimmed)) ∧
    parseServer (toString socket) = .ok socket ∧
    parseServer (toString address) = .ok (.ofAddress defaultDnsPort address) ∧
    ((∃ entry ∈ config.dns.servers, Malformed entry) →
      ∃ front first rest, config.dns.servers = front ++ first :: rest ∧
        (∀ entry ∈ front, ¬Malformed entry) ∧ Malformed first ∧
        let error :=
          .validation (.badServer (String.ofList (Text.trim first.toList)))
        config.dns.endpoints = .error error ∧ Settings.ofConfig config.dns =
        .error error ∧ config.validate = .error error) := by
  refine ⟨⟨Text.trim_trims _, fun endpoint =>
    parseServer_eq_ok_iff, parseServer_eq_error_iff,
    readByRule_iff⟩, parseServer_endpoint socket,
      parseServer_address address, ?_⟩
  intro hmalformed
  exact config_of_malformed hmalformed

/-- One bracket in front of an address is enough to be read, and not by the
rule. -/
theorem single_bracket_is_read :
    parseServer "[1.2.3.4" = .ok (.v4 ⟨1, 2, 3, 4⟩ 53) ∧
      (∀ endpoint, ¬IsServer endpoint "[1.2.3.4".toList) ∧
      ¬ReadByRule "[1.2.3.4" := by
  have hloose : IsLoose (.v4 ⟨1, 2, 3, 4⟩ 53) "[1.2.3.4".toList := by
    have haddress : (IpAddress.v4 ⟨1, 2, 3, 4⟩).IsText "1.2.3.4".toList :=
      .v4 ⟨1, 2, 3, 4⟩
    exact @IsLoose.address _ _ 1 0 haddress nofun
  refine ⟨by decide, hloose.not_isServer, fun hrule => ?_⟩
  exact readByRule_iff.mp hrule _ hloose

end DnsForwarder

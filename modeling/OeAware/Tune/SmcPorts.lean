import Mathlib.Algebra.Ring.Int.Defs
import Mathlib.Algebra.Ring.Nat
import Mathlib.Data.List.TakeWhile
import Mathlib.Tactic.Tauto
import OeAware.Common.Topic
import OeAware.Schemes.Words

/-! @src src/plugin/tune/system/network/smc_tune/kprobe/smc_acc.c | name:check_port | scheme:words

    Two lists of ports say which connections go over to SMC: where the black one names a port, all but what it names; or
    else what the white one names; all, where neither names any.

        "80,8448" ──strsep──▶ 80 │ 8448 ──idr_alloc──▶ black_port_map ──check_port──▶ connect

    A port is stored under its own number, so one that is named again has no place left. And the handler takes the port
    of an address out of two kinds of addresses only. -/

namespace OeAware
open Schemes

namespace SmcAcc

/-! ### The lists -/

def isDigit (c : UInt8) : Bool := 48 ≤ c ∧ c ≤ 57

/-- What decimal digits say. -/
def number (digits : Str) : ℤ := digits.foldl (fun n c => 10 * n + (c.toNat - 48)) 0

/-- Whether there is a minus, and what is behind the sign. -/
def signed : Str → Bool × Str
  | 45 :: rest => (true, rest)
  | 43 :: rest => (false, rest)
  | s => (false, s)

/-- `kstrtoint(s, 10, &res)`; `none` where it returns an error. -/
def kstrtoint (s : Str) : Option ℤ :=
  let digits := (signed s).2.takeWhile isDigit
  let rest := (signed s).2.dropWhile isDigit
  let n := if (signed s).1 then -number digits else number digits
  if digits = [] ∨ (rest ≠ [] ∧ rest ≠ [10]) ∨ n < -2 ^ 31 ∨ 2 ^ 31 ≤ n then none else some n

/-- `struct idr`: the ids that are taken. -/
abbrev Idr := List ℤ

def EINVAL : ℤ := 22
def ENOMEM : ℤ := 12

/-- The loop of `parse_and_store_ports`, over what `strsep` gives. `idr_alloc(port_map, .., port, port + 1, ..)` has one
    id to give. -/
def storePorts : List Str → Idr → ℤ × Idr
  | [], port_map => (0, port_map)
  | token :: tokens, port_map =>
    if token = [] then storePorts tokens port_map
    else match kstrtoint token with
      | none => (-EINVAL, port_map)
      | some port =>
        if port < 0 ∨ port ∈ port_map then (-ENOMEM, port_map) else storePorts tokens (port :: port_map)

def parse_and_store_ports (port_list : Str) (port_map : Idr) : ℤ × Idr := storePorts (port_list.splitOn 44) port_map

def is_port_in_map (port_map : Idr) (port : ℤ) : Bool := port ∈ port_map

def check_port (black_port_map white_port_map : Idr) (port : ℤ) : Bool :=
  if black_port_map ≠ [] then !is_port_in_map black_port_map port
  else if white_port_map ≠ [] then is_port_in_map white_port_map port
  else true

/-! ### `handler_connect_file` -/

def AF_INET : UInt16 := 2
def AF_INET6 : UInt16 := 10
def SOCK_STREAM : UInt16 := 1
def IPPROTO_IP : UInt16 := 0
def IPPROTO_TCP : UInt16 := 6

structure Sock where
  sk_protocol : UInt16
  sk_family : UInt16
  sk_type : UInt16

/-- What the handler asks of a socket. -/
def Sock.IsTcp (sk : Sock) : Prop :=
  (sk.sk_family = AF_INET ∨ sk.sk_family = AF_INET6) ∧ sk.sk_type &&& 15 = SOCK_STREAM ∧
    (sk.sk_protocol = IPPROTO_TCP ∨ sk.sk_protocol = IPPROTO_IP)

instance (sk : Sock) : Decidable sk.IsTcp := inferInstanceAs (Decidable (_ ∧ _ ∧ _))

/-- A `struct file`, where it is a socket's with the `struct socket`, which may have a `struct sock`. -/
structure File where
  sock : Option (Option Sock)

/-- `struct sockaddr_storage`; a port is at one place in `sockaddr_in` and in `sockaddr_in6`. -/
structure Address where
  ss_family : UInt16
  port : UInt16

/-- What becomes of the variable `dst_port`, which is not set where the family is another one. -/
def portOf (address : Address) (dst_port : UInt16) : UInt16 :=
  if address.ss_family = AF_INET then address.port
  else if address.ss_family = AF_INET6 then address.port
  else dst_port

/-- `handler_connect_file`: whether it makes the socket one of SMC. `dst_port` is what the stack holds there. -/
def handler_connect_file (black_port_map white_port_map : Idr) (net_tcp2smc : Int32) (dst_port : UInt16)
    (file : Option File) (address : Option Address) : Bool :=
  if net_tcp2smc = 0 then false
  else match file, address with
    | some ⟨some (some sk)⟩, some address =>
      if sk.IsTcp then check_port black_port_map white_port_map (portOf address dst_port).toNat else false
    | _, _ => false

/-! ### What the lists say -/

def tokens (port_list : Str) : List Str := words (· = 44) port_list

/-- The ports that are named. -/
def ports (port_list : Str) : List ℤ := (tokens port_list).map number

/-- Decimal ports between commas, some of them perhaps with nothing between. -/
def PortList (port_list : Str) : Prop :=
  ∀ token ∈ tokens port_list, (∀ c ∈ token, isDigit c = true) ∧ number token ≤ 65535

instance (port_list : Str) : Decidable (PortList port_list) := inferInstanceAs (Decidable (∀ _ ∈ _, _))

/-- The port may go over. -/
def Allowed (black white : Str) (port : UInt16) : Prop :=
  if ports black ≠ [] then (port.toNat : ℤ) ∉ ports black
  else if ports white ≠ [] then (port.toNat : ℤ) ∈ ports white
  else True

instance (black white : Str) (port : UInt16) : Decidable (Allowed black white port) := by
  unfold Allowed
  infer_instance

variable {token : Str} {port_map : Idr}

theorem number_nonneg_aux : ∀ {ds : Str} {n : ℤ}, (∀ c ∈ ds, isDigit c = true) → 0 ≤ n →
    0 ≤ ds.foldl (fun n c => 10 * n + ((c.toNat : ℤ) - 48)) n
  | [], _, _, hn => hn
  | c :: ds, n, h, hn => by
    obtain ⟨hc, hds⟩ := List.forall_mem_cons.mp h
    have h48 : 48 ≤ c.toNat := UInt8.le_iff_toNat_le.mp (of_decide_eq_true hc).1
    rw [List.foldl_cons]
    exact number_nonneg_aux hds (by omega)

theorem number_nonneg (h : ∀ c ∈ token, isDigit c = true) : 0 ≤ number token := number_nonneg_aux h (by omega)

theorem kstrtoint_digits (hne : token ≠ []) (h : ∀ c ∈ token, isDigit c = true) (hle : number token ≤ 65535) :
    kstrtoint token = some (number token) := by
  have htake : token.takeWhile isDigit = token := List.takeWhile_eq_self_iff.mpr h
  have hdrop : token.dropWhile isDigit = [] := List.dropWhile_eq_nil_iff.mpr h
  have hnonneg := number_nonneg h
  have hsign : signed token = (false, token) := by
    rw [signed.eq_def]
    split
    · exact absurd (h 45 List.mem_cons_self) (by decide)
    · exact absurd (h 43 List.mem_cons_self) (by decide)
    · rfl
  rw [kstrtoint, hsign]
  dsimp only
  rw [htake, hdrop, if_neg]
  · rfl
  · simp [hne]
    omega

/-- Empty items are passed over. -/
theorem storePorts_filter : ∀ (l : List Str) (port_map : Idr),
    storePorts l port_map = storePorts (l.filter (fun w => !w.isEmpty)) port_map
  | [], _ => rfl
  | [] :: l, port_map => by
    rw [storePorts, if_pos rfl, storePorts_filter l]
    rfl
  | (c :: token) :: l, port_map => by
    rw [List.filter_cons_of_pos rfl]
    simp only [storePorts, if_neg (List.cons_ne_nil c token)]
    cases kstrtoint (c :: token) with
    | none => rfl
    | some port =>
      dsimp only
      rw [storePorts_filter l]

/-- ALL STORED: the ports of a list are stored if and only if none of them is named twice or stored before. -/
theorem storePorts_eq_zero_iff : ∀ {l : List Str} {port_map : Idr},
    (∀ token ∈ l, token ≠ [] ∧ (∀ c ∈ token, isDigit c = true) ∧ number token ≤ 65535) →
    ((storePorts l port_map).1 = 0 ↔ (l.map number).Nodup ∧ ∀ p ∈ l.map number, p ∉ port_map) ∧
    ((storePorts l port_map).1 = 0 → ∀ p, p ∈ (storePorts l port_map).2 ↔ p ∈ port_map ∨ p ∈ l.map number)
  | [], port_map, _ => by simp [storePorts]
  | token :: l, port_map, h => by
    obtain ⟨⟨hne, hdigits, hle⟩, hl⟩ := List.forall_mem_cons.mp h
    have hnonneg : ¬ number token < 0 := by
      have hle := number_nonneg hdigits
      omega
    rw [storePorts, if_neg hne, kstrtoint_digits hne hdigits hle]
    dsimp only
    rcases em (number token ∈ port_map) with hmem | hmem
    · rw [if_pos (Or.inr hmem)]
      have hno : ¬ -ENOMEM = 0 := by decide
      refine ⟨iff_of_false hno fun hall => ?_, fun h0 => absurd h0 hno⟩
      exact hall.2 (number token) (by simp) hmem
    · rw [if_neg fun h => h.elim hnonneg hmem]
      obtain ⟨hiff, hall⟩ := @storePorts_eq_zero_iff l (number token :: port_map) hl
      refine ⟨hiff.trans ?_, fun h0 p => (hall h0 p).trans ?_⟩
      · rw [List.map_cons, List.nodup_cons, List.forall_mem_cons]
        constructor
        · rintro ⟨hnodup, hnot⟩
          refine ⟨⟨fun hin => hnot _ hin List.mem_cons_self, hnodup⟩, hmem, fun p hp hin => ?_⟩
          exact hnot p hp (List.mem_cons_of_mem _ hin)
        · rintro ⟨⟨hnot, hnodup⟩, -, hother⟩
          refine ⟨hnodup, fun p hp hin => ?_⟩
          rcases List.mem_cons.mp hin with rfl | hin
          · exact hnot hp
          · exact hother p hp hin
      · rw [List.map_cons, List.mem_cons, List.mem_cons]
        tauto

/-- A list of ports that is parsed into an empty map. -/
theorem parse_iff {port_list : Str} (h : PortList port_list) :
    ((parse_and_store_ports port_list []).1 = 0 ↔ (ports port_list).Nodup) ∧
    ((parse_and_store_ports port_list []).1 = 0 →
      ∀ p, p ∈ (parse_and_store_ports port_list []).2 ↔ p ∈ ports port_list) := by
  have htokens : port_list.splitOn 44 = port_list.splitOnP (fun c => decide (c = 44)) := rfl
  have hall : ∀ token ∈ tokens port_list, token ≠ [] ∧ (∀ c ∈ token, isDigit c = true) ∧ number token ≤ 65535 :=
    fun token hmem => ⟨ne_nil_of_mem_words hmem, h token hmem⟩
  obtain ⟨hiff, hmem⟩ := @storePorts_eq_zero_iff (tokens port_list) [] hall
  rw [parse_and_store_ports, storePorts_filter, htokens]
  refine ⟨hiff.trans ?_, fun h0 p => (hmem h0 p).trans ?_⟩
  · simp [ports]
  · simp [ports]

theorem check_port_iff {black white : Str} {b w : Idr} (hb : ∀ p, p ∈ b ↔ p ∈ ports black)
    (hw : ∀ p, p ∈ w ↔ p ∈ ports white) (port : UInt16) :
    check_port b w port.toNat = true ↔ Allowed black white port := by
  have hnil : ∀ {l l' : List ℤ}, (∀ p, p ∈ l ↔ p ∈ l') → (l ≠ [] ↔ l' ≠ []) := by
    intro l l' h
    rw [Ne, Ne, List.eq_nil_iff_forall_not_mem, List.eq_nil_iff_forall_not_mem]
    exact not_congr (forall_congr' fun p => not_congr (h p))
  rw [check_port, Allowed]
  simp only [hnil hb, hnil hw]
  split
  · rw [is_port_in_map, Bool.not_eq_true', decide_eq_false_iff_not, hb]
  · split
    · rw [is_port_in_map, decide_eq_true_eq, hw]
    · simp

/-- What `handler_connect_file` comes to for a TCP socket. -/
theorem handler_tcp {b w : Idr} {net_tcp2smc : Int32} {dst_port : UInt16} {sk : Sock} {address : Address}
    (hsk : sk.IsTcp) (hnet : net_tcp2smc ≠ 0) :
    handler_connect_file b w net_tcp2smc dst_port (some ⟨some (some sk)⟩) (some address) =
      check_port b w (portOf address dst_port).toNat := by
  simp [handler_connect_file, hnet, hsk]

theorem handler_closed {b w : Idr} {net_tcp2smc : Int32} {dst_port : UInt16} {file : Option File}
    {address : Option Address} (hnet : net_tcp2smc = 0) :
    handler_connect_file b w net_tcp2smc dst_port file address = false := by
  rw [handler_connect_file.eq_def, if_pos hnet]

theorem allowed_portOf {black white : Str} {dst_port : UInt16} {address : Address} :
    (Allowed black white (portOf address dst_port) ↔ Allowed black white address.port) ↔
      (address.ss_family = AF_INET ∨ address.ss_family = AF_INET6) ∨
        (Allowed black white dst_port ↔ Allowed black white address.port) := by
  rw [portOf]
  split
  · rename_i h
    exact iff_of_true Iff.rfl (.inl (.inl h))
  · split
    · rename_i h
      exact iff_of_true Iff.rfl (.inl (.inr h))
    · rename_i h4 h6
      exact (or_iff_right (not_or.mpr ⟨h4, h6⟩)).symm

/-- THE PORTS THAT GO OVER: two lists are stored, `check_port` is what they say and the handler makes just the sockets of
    SMC whose address has a port for which it holds, if and only if neither list names a port twice, the address is one
    of IPv4 or IPv6, or the stack happens to hold a port that is treated the same, and TCP connections are to go over at
    all. -/
theorem ports_iff (black white : Str) (hblack : PortList black) (hwhite : PortList white) (net_tcp2smc : Int32)
    (dst_port : UInt16) (sk : Sock) (hsk : sk.IsTcp) (address : Address) :
    ((parse_and_store_ports black []).1 = 0 ∧ (parse_and_store_ports white []).1 = 0 ∧
      (∀ port : UInt16, check_port (parse_and_store_ports black []).2 (parse_and_store_ports white []).2 port.toNat = true ↔
        Allowed black white port) ∧
      (handler_connect_file (parse_and_store_ports black []).2 (parse_and_store_ports white []).2 net_tcp2smc dst_port
        (some ⟨some (some sk)⟩) (some address) = true ↔ Allowed black white address.port)) ↔
    (ports black).Nodup ∧ (ports white).Nodup ∧
      if net_tcp2smc = 0 then ¬ Allowed black white address.port
      else (address.ss_family = AF_INET ∨ address.ss_family = AF_INET6) ∨
        (Allowed black white dst_port ↔ Allowed black white address.port) := by
  obtain ⟨hb, hbmem⟩ := parse_iff hblack
  obtain ⟨hw, hwmem⟩ := parse_iff hwhite
  rw [hb, hw]
  refine and_congr_right fun hbn => and_congr_right fun hwn => ?_
  have hcheck := check_port_iff (hbmem (hb.mpr hbn)) (hwmem (hw.mpr hwn))
  rw [and_iff_right hcheck]
  split
  · rename_i hnet
    rw [handler_closed hnet]
    simp
  · rename_i hnet
    rw [handler_tcp hsk hnet, hcheck, allowed_portOf]

/-! ### Samples -/

def sampleSock : Sock := ⟨IPPROTO_TCP, AF_INET, SOCK_STREAM⟩

/-- Two ports are left out, and one of them comes. -/
theorem ports_iff_blocked : handler_connect_file (parse_and_store_ports (str "80,,8448") []).2
    (parse_and_store_ports [] []).2 1 0 (some ⟨some (some sampleSock)⟩) (some ⟨AF_INET, 80⟩) = true ↔
    Allowed (str "80,,8448") [] 80 :=
  ((ports_iff (str "80,,8448") [] (by decide +kernel) (by decide +kernel) 1 0 sampleSock (by decide +kernel) ⟨AF_INET, 80⟩).mpr
    (by decide +kernel)).2.2.2

/-- A port that is named twice, and an address without a family, where the stack holds a port that is left out. -/
theorem not_ports : PortList (str "80,80") ∧ (parse_and_store_ports (str "80,80") []).1 ≠ 0 ∧
    handler_connect_file (parse_and_store_ports (str "80") []).2 (parse_and_store_ports [] []).2 1 80
      (some ⟨some (some sampleSock)⟩) (some ⟨0, 443⟩) = false ∧ Allowed (str "80") [] 443 := by
  decide +kernel

end SmcAcc
end OeAware

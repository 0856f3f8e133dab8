import Mathlib.Data.List.Infix
import Oyster.ControlPlane.Aws

/-!
`run_enclave_salmon`, `run_enclave_tuna` and `update_enclave_image` of `aws.rs`, as programs over
the commands of one SSH session. `ssh_exec` looks at what a command prints and not at its exit
status.
-/

namespace Oyster.ControlPlane

open Prog

/-- What the commands are that matter to the image and the enclave of an instance. -/
inductive Command where
  /-- `curl -sL -o enclave.eif --max-filesize 4000000000 --max-time 120 <image_url>` -/
  | download (imageUrl : String)
  /-- `echo "<image_url>" > image_url.txt` -/
  | writeUrl (imageUrl : String)
  /-- `cat image_url.txt` -/
  | readUrl
  /-- `nitro-cli terminate-enclave --all` -/
  | terminateEnclave
  /-- `nitro-cli run-enclave --cpu-count <cpu_count> --memory <memory> --eif-path enclave.eif
  --enclave-cid 88`, with `--debug-mode` or without -/
  | runEnclave (cpuCount memory : ℤ) (debugMode : Bool)
  | other (text : String)
deriving DecidableEq

inductive SshOp where
  | getInstanceIp (instanceId region : String)
  | connect (ipAddress : String)
  | exec (command : Command)
deriving DecidableEq

/-- A command gives its stdout and its stderr. -/
abbrev SshOut : SshOp → Type
  | .getInstanceIp .. => String
  | .connect _ => Unit
  | .exec _ => String × String

abbrev SshAns (op : SshOp) : Type := Option (SshOut op)

abbrev SshProg := OptionT (Prog SshOp SshAns)

def ssh (op : SshOp) : SshProg (SshOut op) := OptionT.mk (perform op)

def sshExec (command : Command) : SshProg (String × String) := ssh (.exec command)

/-- A command that fails if it prints to stderr. -/
def sshQuiet (command : Command) : SshProg Unit := do
  let (_, stderr) ← sshExec command
  if stderr ≠ "" then failure else pure ()

/-- A query that fails if it prints to stderr, or nothing to stdout. -/
def sshQuery (command : Command) : SshProg String := do
  let (stdout, stderr) ← sshExec command
  if stderr ≠ "" ∨ stdout = "" then failure else pure stdout

/-- `char::is_whitespace`. -/
def isWhitespace (c : Char) : Bool :=
  (9 ≤ c.toNat && c.toNat ≤ 13) || (0x2000 ≤ c.toNat && c.toNat ≤ 0x200a) ||
    [0x20, 0x85, 0xa0, 0x1680, 0x2028, 0x2029, 0x202f, 0x205f, 0x3000].contains c.toNat

def trim (text : List Char) : List Char :=
  ((text.dropWhile isWhitespace).reverse.dropWhile isWhitespace).reverse

def splitWhitespace (text : List Char) : List (List Char) :=
  (text.splitOnP isWhitespace).filter fun word => word ≠ []

def contains (text part : List Char) : Bool := decide (part <:+: text)

/-- The interface that `nmcli device status` lists as an ethernet one. -/
def ethernetInterface (stdout : String) : Option String :=
  ((stdout.toList.splitOn '\n').map splitWhitespace).findSome? fun
    | name :: kind :: _ => if kind = "ethernet".toList then some (String.ofList name) else none
    | _ => none

/-- Lower case of ASCII letters is enough for the text that is looked for. -/
def isAnyRuleSet (stdout : String) : Bool :=
  match (trim stdout.toList).splitOn '\n' with
  | [entry] => !contains (entry.map Char.toLower) "qdisc mq 0: root".toList
  | _ => true

def ruleLines (stdout : String) : List (List Char) :=
  ((trim stdout.toList).splitOn '\n').map trim

/-- The hashes that enclave images may or may not have. -/
structure EifLists where
  whitelist : Option (List String)
  blacklist : Option (List String)

namespace EifLists

def lists (entries : List String) (line : List Char) : Bool :=
  entries.any fun entry => contains entry.toList line

def allows (l : EifLists) (line : List Char) : Bool :=
  l.whitelist.all (fun entries => lists entries line) &&
    l.blacklist.all fun entries => !lists entries line

end EifLists

namespace Enclave

def connect (instanceId region : String) : SshProg Unit := do
  let publicIpAddress ← ssh (.getInstanceIp instanceId region)
  ssh (.connect (publicIpAddress ++ ":22"))

def checkEifBlacklistWhitelist (l : EifLists) : SshProg Bool :=
  if l.whitelist.isSome ∨ l.blacklist.isSome then do
    let (stdout, stderr) ← sshExec (.other "sha256sum /home/ubuntu/enclave.eif")
    if stderr ≠ "" then failure
    else match (splitWhitespace stdout.toList).head? with
      | none => failure
      | some line => pure (l.allows line)
  else pure true

/-- The url is stored only when the image is allowed. -/
def downloadImage (l : EifLists) (imageUrl : String) : SshProg Unit := do
  let _ ← sshExec (.download imageUrl)
  let isEifAllowed ← checkEifBlacklistWhitelist l
  if !isEifAllowed then failure
  else do
    let _ ← sshExec (.writeUrl imageUrl)
    pure ()

def startEnclave (reqVcpu reqMem : ℤ) (debugMode : Bool) : SshProg Unit := do
  let (_, stderr) ← sshExec (.runEnclave reqVcpu reqMem debugMode)
  if stderr ≠ "" ∧ !contains stderr.toList "Started enclave with enclave-cid".toList then failure
  else pure ()

def setUpAllocator (reqVcpu reqMem : ℤ) : SshProg Unit := do
  let _ ← sshExec (.other ("echo -e '---\\nmemory_mib: " ++ toString reqMem ++ "\\ncpu_count: " ++
    toString reqVcpu ++ "' | sudo tee /etc/nitro_enclaves/allocator.yaml"))
  sshQuiet (.other "sudo systemctl restart nitro-enclaves-allocator.service")

def limitBandwidth (bandwidth : ℕ) : SshProg Unit := do
  let stdout ← sshQuery (.other "nmcli device status")
  match ethernetInterface stdout with
  | none => failure
  | some interface => do
    let stdout ← sshQuery (.other ("sudo tc qdisc show dev " ++ interface ++ " root"))
    -- remove previously defined rules
    if isAnyRuleSet stdout then sshQuiet (.other ("sudo tc qdisc del dev " ++ interface ++ " root"))
    sshQuiet (.other ("sudo tc qdisc add dev " ++ interface ++ " root tbf rate " ++
      toString bandwidth ++ "kbit burst 4000Mb latency 100ms"))

/-- The commands for the rules that are missing, once the policy is the expected one. -/
def addRules (query policy : String) (rules : List (String × String)) : SshProg Unit := do
  let stdout ← sshQuery (.other query)
  if (ruleLines stdout).head? ≠ some policy.toList then failure
  else rules.forM fun (rule, command) =>
    if (ruleLines stdout).contains rule.toList then pure () else sshQuiet (.other command)

def setUpLogger (debug : Bool) : SshProg Unit :=
  if debug then do
    sshQuiet (.other ("curl -fsS https://artifacts.marlin.org/oyster/binaries/" ++
      "nitro-logger_v1.0.0_linux_`uname -m | sed 's/x86_64/amd64/g; s/aarch64/arm64/g'`" ++
      " -o nitro-logger && chmod +x nitro-logger"))
    sshQuiet (.other ("<<EOF cat | sudo tee /etc/supervisor/conf.d/logger.conf\n" ++
      "[program:logger]\ncommand=/home/ubuntu/nitro-logger --enclave-log-file-path " ++
      "/home/ubuntu/enclave.log --script-log-file-path /home/ubuntu/logger.log\n" ++
      "autostart=true\nautorestart=true\nEOF\n                "))
    sshQuiet (.other "sudo supervisorctl reread && sudo supervisorctl update logger")
  else pure ()

def salmonRules : List (String × String) :=
  [("-A PREROUTING -i ens5 -p tcp -m tcp --dport 80 -j REDIRECT --to-ports 1200",
    "sudo iptables -A PREROUTING -t nat -p tcp --dport 80 -i ens5 -j REDIRECT --to-port 1200"),
  ("-A PREROUTING -i ens5 -p tcp -m tcp --dport 443 -j REDIRECT --to-ports 1200",
    "sudo iptables -A PREROUTING -t nat -p tcp --dport 443 -i ens5 -j REDIRECT --to-port 1200"),
  ("-A PREROUTING -i ens5 -p tcp -m tcp --dport 1025:65535 -j REDIRECT --to-ports 1200",
    "sudo iptables -A PREROUTING -t nat -p tcp --dport 1025:65535 -i ens5 -j REDIRECT " ++
      "--to-port 1200")]

def tunaRules : List (String × String) :=
  [("-A INPUT -i ens5 -p tcp -m tcp --dport 80 -j NFQUEUE --queue-num 0",
    "sudo iptables -A INPUT -p tcp -i ens5 --dport 80 -j NFQUEUE --queue-num 0"),
  ("-A INPUT -i ens5 -p tcp -m tcp --dport 443 -j NFQUEUE --queue-num 0",
    "sudo iptables -A INPUT -p tcp -i ens5 --dport 443 -j NFQUEUE --queue-num 0"),
  ("-A INPUT -i ens5 -p tcp -m tcp --dport 1024:61439 -j NFQUEUE --queue-num 0",
    "sudo iptables -A INPUT -p tcp -i ens5 --dport 1024:61439 -j NFQUEUE --queue-num 0")]

/-- The job id is the argument `_job_id`, which nothing reads. -/
def runEnclaveSalmon (l : EifLists) (instanceId region imageUrl : String) (reqVcpu reqMem : ℤ)
    (bandwidth : ℕ) (debug : Bool) : SshProg Unit := do
  connect instanceId region
  setUpAllocator reqVcpu reqMem
  downloadImage l imageUrl
  limitBandwidth bandwidth
  addRules "sudo iptables -t nat -S PREROUTING" "-P PREROUTING ACCEPT" salmonRules
  setUpLogger debug
  startEnclave reqVcpu reqMem debug

def runEnclaveTuna (l : EifLists) (jobId instanceId region imageUrl : String)
    (reqVcpu reqMem : ℤ) (bandwidth : ℕ) (debug : Bool) : SshProg Unit := do
  connect instanceId region
  sshQuiet (.other "sudo sysctl -w net.ipv4.ip_local_port_range=\"61440 65535\"")
  setUpAllocator reqVcpu reqMem
  downloadImage l imageUrl
  limitBandwidth bandwidth
  addRules "sudo iptables -S INPUT" "-P INPUT ACCEPT" tunaRules
  sshQuiet (.other ("sudo sed -i -e 's/placeholder_job_id/" ++ jobId ++
    "/g' /etc/supervisor/conf.d/oyster-init-server.conf"))
  sshQuiet (.other "sudo supervisorctl update")
  setUpLogger debug
  startEnclave reqVcpu reqMem debug

def runEnclaveImpl (l : EifLists) (jobId family instanceId region imageUrl : String)
    (reqVcpu reqMem : ℤ) (bandwidth : ℕ) (debug : Bool) : SshProg Unit :=
  if family = "salmon" then
    runEnclaveSalmon l instanceId region imageUrl reqVcpu reqMem bandwidth debug
  else if family = "tuna" then
    runEnclaveTuna l jobId instanceId region imageUrl reqVcpu reqMem bandwidth debug
  else failure

/-- What `update_enclave_image_impl` does unless the url is found in place. -/
def replaceImage (l : EifLists) (eifUrl : String) (reqVcpu reqMem : ℤ) : SshProg Unit := do
  downloadImage l eifUrl
  sshQuiet .terminateEnclave
  startEnclave reqVcpu reqMem false

def updateEnclaveImageImpl (l : EifLists) (instanceId region eifUrl : String)
    (reqVcpu reqMem : ℤ) : SshProg Unit := do
  connect instanceId region
  let (stdout, stderr) ← sshExec .readUrl
  if stderr = "" ∧ stdout = eifUrl then pure ()
  else replaceImage l eifUrl reqVcpu reqMem

end Enclave

end Oyster.ControlPlane

import Runnerd.Urls

/-!
`scripts/start-github-runner.sh`, the text that `startScript` fills in, line by line: the
lines that hold a placeholder, and between them the lines that every runner is started
with. What the shell's commands do there is not modelled.
-/

namespace Runnerd.StartScript
open Urls (Text code ascii)

structure Placeholder where
  variableName : String
  index : String

/-- The variables that are written in Base64, in their order. -/
def decodedVariables : List Placeholder :=
  [⟨"runner_url", "1"⟩, ⟨"registration_token", "2"⟩, ⟨"runner_name", "3"⟩, ⟨"runner_labels", "4"⟩,
    ⟨"runner_group", "5"⟩, ⟨"runner_request_id", "6"⟩, ⟨"sandbox_id", "7"⟩,
    ⟨"cache_s3_region", "9"⟩, ⟨"cache_s3_bucket", "10"⟩, ⟨"cache_s3_endpoint", "11"⟩,
    ⟨"cache_s3_read_prefixes", "12"⟩, ⟨"cache_s3_write_prefix", "13"⟩,
    ⟨"cache_s3_access_key", "14"⟩, ⟨"cache_s3_secret_key", "15"⟩,
    ⟨"cache_s3_session_token", "16"⟩]

def opening : Text := ascii "=\"$(printf '%%s' \"%["
def closing : Text := ascii "]s\" | base64 -d)\""

def Placeholder.line (placeholder : Placeholder) : Text :=
  ascii placeholder.variableName ++ (opening ++ (ascii placeholder.index ++ closing))

def requireDockerLine : Text := ascii "require_docker=\"%[8]s\""

section Lines

/-- Before `require_docker`. -/
def preparation : List String :=
  ["#!/usr/bin/env bash",
    "set -euo pipefail",
    "",
    "runner_user=\"$\x7bRUNNER_USER:-runner\x7d\"",
    "actions_runner_root=\"$\x7bACTIONS_RUNNER_ROOT:-/opt/actions-runner\x7d\"",
    "workdir=\"$\x7bRUNNER_WORKDIR:-/home/runner/actions-runner\x7d\"",
    "runner_job_work=\"$\x7bRUNNER_JOB_WORK:-/home/runner/work\x7d\"",
    "hook_root=\"$\x7bRUNNER_HOOK_ROOT:-/home/runner/_runnerd-hooks\x7d\"",
    "ensure_docker=\"$\x7bENSURE_DOCKER:-/usr/local/bin/ensure-docker\x7d\""]

/-- Up to the variables: the environment, the runner's own user, the runner and Docker. -/
def installation : List String :=
  ["runner_environment_file=\"$\x7bRUNNER_ENVIRONMENT_FILE:-/etc/environment\x7d\"",
    "export HOME=\"$\x7bRUNNER_HOME:-/home/runner\x7d\"",
    "export XDG_CONFIG_HOME=\"$\x7bHOME\x7d/.config\"",
    "export GOPATH=\"$\x7bGOPATH:-/opt/go\x7d\"",
    "export GOBIN=\"$\x7bGOBIN:-/usr/local/bin\x7d\"",
    "export RUNNER_TOOL_CACHE=\"$\x7bRUNNER_TOOL_CACHE:-/opt/hostedtoolcache\x7d\"",
    "export AGENT_TOOLSDIRECTORY=\"$\x7bAGENT_TOOLSDIRECTORY:-/opt/hostedtoolcache\x7d\"",
    "export PATH=\"/usr/local/go/bin:/usr/local/bin:$\x7bGOPATH\x7d/bin:$\x7bPATH\x7d\"",
    "if [ -r \"$runner_environment_file\" ]; then",
    "  set -a",
    "  # runner-images writes shell-compatible KEY=\"value\" entries here.",
    "  # The environment can contain references to build-only variables. Keep",
    "  # nounset disabled while loading it so those entries do not abort startup.",
    "  set +u",
    "  # shellcheck disable=SC1090",
    "  . \"$runner_environment_file\"",
    "  set -u",
    "  set +a",
    "fi",
    "",
    "if [ \"$(id -u)\" -eq 0 ] && id -u \"$runner_user\" >/dev/null 2>&1 && [ " ++
      "\"$\x7bRUNNERD_AS_RUNNER:-\x7d\" != 1 ]; then",
    "  install -d -o \"$runner_user\" -g \"$runner_user\" \\",
    "    \"$workdir\" \"$runner_job_work\" \"$HOME\" \"$XDG_CONFIG_HOME/git\" \"$hook_root\"",
    "  exec sudo -E -u \"$runner_user\" \\",
    "    RUNNERD_AS_RUNNER=1 \\",
    "    RUNNER_USER=\"$runner_user\" \\",
    "    ACTIONS_RUNNER_ROOT=\"$actions_runner_root\" \\",
    "    RUNNER_WORKDIR=\"$workdir\" \\",
    "    RUNNER_JOB_WORK=\"$runner_job_work\" \\",
    "    RUNNER_HOOK_ROOT=\"$hook_root\" \\",
    "    ENSURE_DOCKER=\"$ensure_docker\" \\",
    "    RUNNER_ENVIRONMENT_FILE=\"$runner_environment_file\" \\",
    "    HOME=\"$HOME\" \\",
    "    bash \"$0\"",
    "fi",
    "if [ \"$(id -u)\" -eq 0 ]; then",
    "  export RUNNER_ALLOW_RUNASROOT=1",
    "fi",
    "",
    "mkdir -p \"$workdir\" \"$runner_job_work\" \"$HOME\" \"$XDG_CONFIG_HOME/git\" \"$hook_root\"",
    "cd \"$workdir\"",
    "",
    "if [ ! -x \"$actions_runner_root/config.sh\" ]; then",
    "  echo \"missing preinstalled GitHub Actions runner at $actions_runner_root/config.sh\" >&2",
    "  echo \"build one of the managed GitHub runner templates before starting runners\" >&2",
    "  exit 1",
    "fi",
    "",
    "if [ ! -x ./config.sh ]; then",
    "  echo \"copying preinstalled GitHub Actions runner\"",
    "  cp -a \"$actions_runner_root\"/. \"$workdir\"/",
    "fi",
    "",
    "if [ ! -x \"$ensure_docker\" ]; then",
    "  if [ \"$require_docker\" = 1 ]; then",
    "    echo \"missing required Docker bootstrap helper at $ensure_docker\" >&2",
    "    exit 1",
    "  fi",
    "  echo \"Docker bootstrap helper is unavailable; continuing without Docker\" >&2",
    "else",
    "  echo \"checking Docker daemon\"",
    "  if ! \"$ensure_docker\"; then",
    "    if [ \"$require_docker\" = 1 ]; then",
    "      echo \"Docker daemon is required for this managed runner\" >&2",
    "      exit 1",
    "    fi",
    "    echo \"Docker daemon is unavailable; continuing without Docker\" >&2",
    "  fi",
    "fi",
    ""]

/-- After the variables: the cache, the hooks, and the runner itself. -/
def registration : List String :=
  ["",
    "# Inject Cache S3 STS credentials for qiniu/actions-cache",
    "if [ -n \"$cache_s3_bucket\" ] && [ -n \"$cache_s3_access_key\" ] && [ -n " ++
      "\"$cache_s3_secret_key\" ]; then",
    "  export RUNS_ON_S3_BUCKET_CACHE=\"$cache_s3_bucket\"",
    "  if [ -n \"$cache_s3_endpoint\" ]; then",
    "    export RUNS_ON_S3_BUCKET_ENDPOINT=\"$cache_s3_endpoint\"",
    "  fi",
    "  export RUNS_ON_AWS_REGION=\"$cache_s3_region\"",
    "  export RUNS_ON_S3_FORCE_PATH_STYLE=\"true\"",
    "  # qiniu/actions-cache reads these dedicated variables into an explicit S3",
    "  # client provider, so workflow AWS credential changes cannot replace them.",
    "  export RUNS_ON_S3_ACCESS_KEY_ID=\"$cache_s3_access_key\"",
    "  export RUNS_ON_S3_SECRET_ACCESS_KEY=\"$cache_s3_secret_key\"",
    "  if [ -n \"$cache_s3_session_token\" ]; then",
    "    export RUNS_ON_S3_SESSION_TOKEN=\"$cache_s3_session_token\"",
    "  fi",
    "  # Keep AWS-compatible names for SDKs used by workflow steps. The cache action",
    "  # snapshots the runnerd-specific names into an explicit S3 client provider.",
    "  export AWS_ACCESS_KEY_ID=\"$cache_s3_access_key\"",
    "  export AWS_SECRET_ACCESS_KEY=\"$cache_s3_secret_key\"",
    "  if [ -n \"$cache_s3_session_token\" ]; then",
    "    export AWS_SESSION_TOKEN=\"$cache_s3_session_token\"",
    "  fi",
    "  if [ -n \"$cache_s3_read_prefixes\" ]; then",
    "    export RUNS_ON_S3_CACHE_READ_PREFIXES=\"$cache_s3_read_prefixes\"",
    "  else",
    "    echo \"cache S3 read scopes are missing; restore is disabled\" >&2",
    "  fi",
    "  if [ -n \"$cache_s3_write_prefix\" ]; then",
    "    export RUNS_ON_S3_CACHE_WRITE_PREFIX=\"$cache_s3_write_prefix\"",
    "  else",
    "    echo \"cache S3 write scope is missing; save is disabled\" >&2",
    "  fi",
    "  # Tune qiniu/actions-cache upload/download concurrency for better throughput.",
    "  export UPLOAD_QUEUE_SIZE=\"$\x7bUPLOAD_QUEUE_SIZE:-16\x7d\"",
    "  export UPLOAD_PART_SIZE=\"$\x7bUPLOAD_PART_SIZE:-16\x7d\"",
    "  export DOWNLOAD_QUEUE_SIZE=\"$\x7bDOWNLOAD_QUEUE_SIZE:-16\x7d\"",
    "  export DOWNLOAD_PART_SIZE=\"$\x7bDOWNLOAD_PART_SIZE:-16\x7d\"",
    "  echo \"injected cache S3 STS credentials for qiniu/actions-cache " ++
      "(upload_queue=$\x7bUPLOAD_QUEUE_SIZE\x7d upload_part=$\x7bUPLOAD_PART_SIZE\x7dMiB " ++
      "download_queue=$\x7bDOWNLOAD_QUEUE_SIZE\x7d download_part=$\x7bDOWNLOAD_PART_SIZE\x7dMiB)\"",
    "elif [ -n \"$cache_s3_bucket\" ]; then",
    "  echo \"cache S3 configuration is incomplete; skipping credential injection\" >&2",
    "fi",
    "export RUNNERD_SANDBOX_ID=\"$sandbox_id\"",
    "export RUNNERD_REQUEST_ID=\"$runner_request_id\"",
    "export RUNNERD_RUNNER_NAME=\"$runner_name\"",
    "cat >\"$hook_root/job-started.sh\" <<'HOOK'",
    "#!/usr/bin/env bash",
    "echo \"RUNNERD_JOB_STARTED\"",
    "echo \"::notice title=Qiniu sandbox::sandbox_id=$\x7bRUNNERD_SANDBOX_ID\x7d " ++
      "runner_request_id=$\x7bRUNNERD_REQUEST_ID\x7d runner_name=$\x7bRUNNERD_RUNNER_NAME\x7d\"",
    "echo \"Qiniu sandbox id: $\x7bRUNNERD_SANDBOX_ID\x7d\"",
    "echo \"Runner request id: $\x7bRUNNERD_REQUEST_ID\x7d\"",
    "echo \"Runner name: $\x7bRUNNERD_RUNNER_NAME\x7d\"",
    "HOOK",
    "cat >\"$hook_root/job-completed.sh\" <<'HOOK'",
    "#!/usr/bin/env bash",
    "echo \"RUNNERD_JOB_COMPLETED\"",
    "HOOK",
    "chmod +x \"$hook_root/job-started.sh\" \"$hook_root/job-completed.sh\"",
    "export ACTIONS_RUNNER_HOOK_JOB_STARTED=\"$hook_root/job-started.sh\"",
    "export ACTIONS_RUNNER_HOOK_JOB_COMPLETED=\"$hook_root/job-completed.sh\"",
    "",
    "config_args=(--url \"$runner_url\" --token \"$registration_token\" --name " ++
      "\"$runner_name\" --labels \"$runner_labels\" --work \"$runner_job_work\" --ephemeral " ++
      "--unattended --replace --disableupdate)",
    "if [ -n \"$runner_group\" ]; then",
    "  config_args+=(--runnergroup \"$runner_group\")",
    "fi",
    "",
    "echo \"configuring GitHub Actions runner $\x7brunner_name\x7d\"",
    "retries_left=10",
    "while [ \"$retries_left\" -gt 0 ]; do",
    "  if ./config.sh \"$\x7bconfig_args[@]\x7d\"; then",
    "    break",
    "  fi",
    "  retries_left=$((retries_left - 1))",
    "  if [ \"$retries_left\" -eq 0 ]; then",
    "    echo \"GitHub Actions runner configuration failed\" >&2",
    "    exit 2",
    "  fi",
    "  echo \"GitHub Actions runner configuration failed, retrying\"",
    "  sleep 1",
    "done",
    "cleanup() \x7b",
    "  ./config.sh remove --token \"$registration_token\" || true",
    "\x7d",
    "trap cleanup EXIT",
    "echo \"starting GitHub Actions runner\"",
    "./run.sh"]

end Lines

inductive ScriptLine where
  | fixed (text : String)
  | docker
  | decoded (placeholder : Placeholder)

def bytesOf (text : String) : Text := text.toUTF8.data.toList

def ScriptLine.text : ScriptLine → Text
  | .fixed text => bytesOf text
  | .docker => requireDockerLine
  | .decoded placeholder => placeholder.line

def scriptLines : List ScriptLine :=
  preparation.map .fixed ++ .docker :: installation.map .fixed ++
    decodedVariables.map .decoded ++ registration.map .fixed

def endLine (line : Text) : Text := line ++ [code '\n']

def startRunnerScriptTemplate : Text := scriptLines.flatMap fun line => endLine line.text

end Runnerd.StartScript

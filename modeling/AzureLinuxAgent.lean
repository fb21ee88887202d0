import AzureLinuxAgent.Python.Str
import AzureLinuxAgent.Python.Dict
import AzureLinuxAgent.Python.Regex
import AzureLinuxAgent.TextUtil.Unpack
import AzureLinuxAgent.TextUtil.Hex
import AzureLinuxAgent.TextUtil.SshConfig
import AzureLinuxAgent.TextUtil.IniConfig
import AzureLinuxAgent.TextUtil.Redact
import AzureLinuxAgent.Telemetry.Event
import AzureLinuxAgent.Telemetry.Params
import AzureLinuxAgent.Telemetry.FileSystem
import AzureLinuxAgent.Telemetry.Collect
import AzureLinuxAgent.Agent.ParseArgs
import AzureLinuxAgent.Telemetry.Operation
import AzureLinuxAgent.Telemetry.Legacy
import AzureLinuxAgent.Telemetry.Daemon
import AzureLinuxAgent.TextUtil.SwapHex
import AzureLinuxAgent.TextUtil.HexDump
import AzureLinuxAgent.TextUtil.Encoding
import AzureLinuxAgent.TextUtil.Pem
import AzureLinuxAgent.OsUtil.Factory

/-
# The prompts of the function call converter

The texts that the converter writes into messages, line by line: the system prompt's
suffix, the examples for the tools, and the end of the example in a user message.
-/
import Mathlib.Data.List.Basic

namespace OpenHands.FnCall

/-- A text of a message. -/
abbrev Text := List Char

/-- Lines, each with the newline that ends it. -/
def unlines (lines : List String) : Text := lines.flatMap fun line => line.toList ++ ['\n']

/-- The format of function calls, as the system prompt explains it. -/
def formatOfCalls : Text := unlines [
  "",
  "",
  "If you choose to call a function ONLY reply in the following format with NO suffix:",
  "",
  "<function=example_function_name>",
  "<parameter=example_parameter_1>value_1</parameter>",
  "<parameter=example_parameter_2>",
  "This is the value for the second parameter",
  "that can span",
  "multiple lines",
  "</parameter>",
  "</function>",
  "",
  "<IMPORTANT>",
  "Reminder:",
  "- Function calls MUST follow the specified format, start with <function= and end with </function>",
  "- Required parameters MUST be specified",
  "- Only call one function at a time",
  "- You may provide optional reasoning for your function call in natural language BEFORE the function call, but NOT after.",
  "- If there is no function call available, answer the question like normal with your current knowledge and do not tell the user about function calls",
  "</IMPORTANT>"]

/-- `SYSTEM_PROMPT_SUFFIX_TEMPLATE` with the description of the tools filled in. -/
def systemPromptSuffix (description : Text) : Text :=
  unlines ["", "You have access to the following functions:", ""] ++ description ++ formatOfCalls

/-! ## Examples for the tools -/

/-- `TOOL_EXAMPLES['execute_bash']['check_dir']`. -/
def executeBashCheckDir : Text := unlines [
  "",
  "ASSISTANT: Sure! Let me first check the current directory:",
  "<function=execute_bash>",
  "<parameter=command>",
  "pwd && ls",
  "</parameter>",
  "</function>",
  "",
  "USER: EXECUTION RESULT of [execute_bash]:",
  "/workspace",
  "openhands@runtime:~/workspace$"]

/-- `TOOL_EXAMPLES['execute_bash']['run_server']`. -/
def executeBashRunServer : Text := unlines [
  "",
  "ASSISTANT:",
  "Let me run the Python file for you:",
  "<function=execute_bash>",
  "<parameter=command>",
  "python3 app.py > server.log 2>&1 &",
  "</parameter>",
  "</function>",
  "",
  "USER: EXECUTION RESULT of [execute_bash]:",
  "[1] 121",
  "[1]+  Exit 1                  python3 app.py > server.log 2>&1",
  "",
  "ASSISTANT:",
  "Looks like the server was running with PID 121 then crashed. Let me check the server log:",
  "<function=execute_bash>",
  "<parameter=command>",
  "cat server.log",
  "</parameter>",
  "</function>",
  "",
  "USER: EXECUTION RESULT of [execute_bash]:",
  "Traceback (most recent call last):",
  "  File \"/workspace/app.py\", line 2, in <module>",
  "    from flask import Flask",
  "ModuleNotFoundError: No module named 'flask'",
  "",
  "ASSISTANT:",
  "Looks like the server crashed because the `flask` module is not installed. Let me install the `flask` module for you:",
  "<function=execute_bash>",
  "<parameter=command>",
  "pip3 install flask",
  "</parameter>",
  "</function>",
  "",
  "USER: EXECUTION RESULT of [execute_bash]:",
  "Defaulting to user installation because normal site-packages is not writeable",
  "Collecting flask",
  "  Using cached flask-3.0.3-py3-none-any.whl (101 kB)",
  "Collecting blinker>=1.6.2",
  "  Using cached blinker-1.7.0-py3-none-any.whl (13 kB)",
  "Collecting Werkzeug>=3.0.0",
  "  Using cached werkzeug-3.0.2-py3-none-any.whl (226 kB)",
  "Collecting click>=8.1.3",
  "  Using cached click-8.1.7-py3-none-any.whl (97 kB)",
  "Collecting itsdangerous>=2.1.2",
  "  Using cached itsdangerous-2.2.0-py3-none-any.whl (16 kB)",
  "Requirement already satisfied: Jinja2>=3.1.2 in /home/openhands/.local/lib/python3.10/site-packages (from flask) (3.1.3)",
  "Requirement already satisfied: MarkupSafe>=2.0 in /home/openhands/.local/lib/python3.10/site-packages (from Jinja2>=3.1.2->flask) (2.1.5)",
  "Installing collected packages: Werkzeug, itsdangerous, click, blinker, flask",
  "Successfully installed Werkzeug-3.0.2 blinker-1.7.0 click-8.1.7 flask-3.0.3 itsdangerous-2.2.0",
  "",
  "ASSISTANT:",
  "The `flask` module is installed successfully. Let me run the Python file again:",
  "<function=execute_bash>",
  "<parameter=command>",
  "python3 app.py > server.log 2>&1 &",
  "</parameter>",
  "</function>",
  "",
  "USER: EXECUTION RESULT of [execute_bash]:",
  "[1] 124",
  "",
  "ASSISTANT:",
  "Let me check the server log again:",
  "<function=execute_bash>",
  "<parameter=command>",
  "cat server.log",
  "</parameter>",
  "</function>",
  "",
  "USER: EXECUTION RESULT of [execute_bash]:",
  "* Serving Flask app 'app'",
  " * Debug mode: off",
  "WARNING: This is a development server. Do not use it in a production deployment. Use a production WSGI server instead.",
  " * Running on http://127.0.0.1:5000",
  "Press CTRL+C to quit",
  "",
  "ASSISTANT:",
  "The server is running on port 5000 with PID 124. You can access the list of numbers by visiting http://127.0.0.1:5000. If you have any further questions, feel free to ask!"]

/-- `TOOL_EXAMPLES['execute_bash']['kill_server']`. -/
def executeBashKillServer : Text := unlines [
  "",
  "USER: Now kill the server, make it display the numbers in a table format.",
  "",
  "ASSISTANT:",
  "Sure! Let me stop the server first:",
  "<function=execute_bash>",
  "<parameter=command>",
  "kill 124",
  "</parameter>",
  "</function>",
  "",
  "USER: EXECUTION RESULT of [execute_bash]:",
  "[1]+  Terminated              python3 app.py > server.log 2>&1"]

/-- `TOOL_EXAMPLES['execute_bash']['run_server_again']`. -/
def executeBashRunServerAgain : Text := unlines [
  "",
  "ASSISTANT:",
  "Running the updated file:",
  "<function=execute_bash>",
  "<parameter=command>",
  "python3 app.py > server.log 2>&1 &",
  "</parameter>",
  "</function>",
  "",
  "USER: EXECUTION RESULT of [execute_bash]:",
  "[1] 126",
  "",
  "ASSISTANT:",
  "The server is running on port 5000 with PID 126. You can access the list of numbers in a table format by visiting http://127.0.0.1:5000."]

/-- `TOOL_EXAMPLES['str_replace_editor']['create_file']`. -/
def strReplaceEditorCreateFile : Text := unlines [
  "",
  "ASSISTANT:",
  "There is no `app.py` file in the current directory. Let me create a Python file `app.py`:",
  "<function=str_replace_editor>",
  "<parameter=command>create</parameter>",
  "<parameter=path>/workspace/app.py</parameter>",
  "<parameter=file_text>",
  "from flask import Flask",
  "app = Flask(__name__)",
  "",
  "@app.route('/')",
  "def index():",
  "    numbers = list(range(1, 11))",
  "    return str(numbers)",
  "",
  "if __name__ == '__main__':",
  "    app.run(port=5000)",
  "</parameter>",
  "</function>",
  "",
  "USER: EXECUTION RESULT of [str_replace_editor]:",
  "File created successfully at: /workspace/app.py"]

/-- `TOOL_EXAMPLES['str_replace_editor']['edit_file']`. -/
def strReplaceEditorEditFile : Text := unlines [
  "",
  "ASSISTANT:",
  "Now let me display the numbers in a table format:",
  "<function=str_replace_editor>",
  "<parameter=command>str_replace</parameter>",
  "<parameter=path>/workspace/app.py</parameter>",
  "<parameter=old_str>return str(numbers)</parameter>",
  "<parameter=new_str>return '<table>' + ''.join([f'<tr><td>\x7bi\x7d</td></tr>' for i in numbers]) + '</table>'</parameter>",
  "</function>",
  "",
  "USER: EXECUTION RESULT of [str_replace_editor]:",
  "The file /workspace/app.py has been edited. Here's the result of running `cat -n` on a snippet of /workspace/app.py:",
  "     3",
  "     4  @app.route('/')",
  "     5  def index():",
  "     6      numbers = list(range(1, 11))",
  "     7      return '<table>' + ''.join([f'<tr><td>\x7bi\x7d</td></tr>' for i in numbers]) + '</table>'",
  "     8",
  "     9  if __name__ == '__main__':",
  "    10      app.run(port=5000)",
  "Review the changes and make sure they are as expected. Edit the file again if necessary.",
  ""]

/-- `TOOL_EXAMPLES['browser']['view_page']`. -/
def browserViewPage : Text := unlines [
  "",
  "ASSISTANT:",
  "Let me check how the page looks in the browser:",
  "<function=browser>",
  "<parameter=code>",
  "goto('http://127.0.0.1:5000')",
  "noop(1000)  # Wait for page to load",
  "</parameter>",
  "</function>",
  "",
  "USER: EXECUTION RESULT of [browser]:",
  "[Browser shows the numbers in a table format]"]

/-- `TOOL_EXAMPLES['edit_file']['create_file']`. -/
def editFileCreateFile : Text := unlines [
  "",
  "ASSISTANT: There is no `app.py` file in the current directory. Let me create a Python file `app.py`:",
  "<function=edit_file>",
  "<parameter=path>/workspace/app.py</parameter>",
  "<parameter=start>1</parameter>",
  "<parameter=end>-1</parameter>",
  "<parameter=content>",
  "from flask import Flask",
  "app = Flask(__name__)",
  "",
  "@app.route('/')",
  "def index():",
  "    numbers = list(range(1, 11))",
  "    return str(numbers)",
  "",
  "if __name__ == '__main__':",
  "    app.run(port=5000)",
  "</parameter>",
  "</function>",
  "",
  "USER: EXECUTION RESULT of [edit_file]:",
  "File created successfully at: /workspace/app.py"]

/-- `TOOL_EXAMPLES['edit_file']['edit_file']`. -/
def editFileEditFile : Text := unlines [
  "",
  "ASSISTANT:",
  "Now let me display the numbers in a table format:",
  "<function=edit_file>",
  "<parameter=path>/workspace/app.py</parameter>",
  "<parameter=start>6</parameter>",
  "<parameter=end>9</parameter>",
  "<parameter=content>",
  "    numbers = list(range(1, 11))",
  "    return '<table>' + ''.join([f'<tr><td>\x7bi\x7d</td></tr>' for i in numbers]) + '</table>'",
  "    # ... existing code ...",
  "if __name__ == '__main__':",
  "</parameter>",
  "</function>",
  "",
  "USER: EXECUTION RESULT of [edit_file]:",
  "The file /workspace/app.py has been edited. Here's the result of running `cat -n` on a snippet of /workspace/app.py:",
  "     3",
  "     4  @app.route('/')",
  "     5  def index():",
  "     6      numbers = list(range(1, 11))",
  "     7      return '<table>' + ''.join([f'<tr><td>\x7bi\x7d</td></tr>' for i in numbers]) + '</table>'",
  "     8",
  "     9  if __name__ == '__main__':",
  "    10      app.run(port=5000)",
  "Review the changes and make sure they are as expected. Edit the file again if necessary."]

/-- `TOOL_EXAMPLES['finish']['example']`. -/
def finishExample : Text := unlines [
  "",
  "ASSISTANT:",
  "The server is running on port 5000 with PID 126. You can access the list of numbers in a table format by visiting http://127.0.0.1:5000. Let me know if you have any further requests!",
  "<function=finish>",
  "<parameter=message>The task has been completed. The web server is running and displaying numbers 1-10 in a table format at http://127.0.0.1:5000.</parameter>",
  "</function>"]

/-- What stands before the examples. -/
def exampleStart : Text := unlines [
  "Here's a running example of how to perform a task with the provided tools.",
  "",
  "--------------------- START OF EXAMPLE ---------------------",
  "",
  "USER: Create a list of numbers from 1 to 10, and display them in a web page at port 5000.",
  ""]

/-- What stands after the examples. -/
def exampleEnd : Text := unlines [
  "",
  "--------------------- END OF EXAMPLE ---------------------",
  "",
  "Do NOT assume the environment is the same as in the example above.",
  "",
  "--------------------- NEW TASK DESCRIPTION ---------------------"]

/-- `IN_CONTEXT_LEARNING_EXAMPLE_SUFFIX`. -/
def inContextLearningExampleSuffix : Text := unlines [
  "",
  "--------------------- END OF NEW TASK DESCRIPTION ---------------------",
  "",
  "PLEASE follow the format strictly! PLEASE EMIT ONE AND ONLY ONE FUNCTION CALL PER MESSAGE."]

end OpenHands.FnCall
